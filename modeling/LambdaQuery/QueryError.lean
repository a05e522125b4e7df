import LambdaQuery.Expr.Lowering
import LambdaQuery.Json
import LambdaQuery.Lines
import LambdaQuery.Term.SyntaxError

/-!
What can be wrong with a query, with the query itself, and how it is reported.
-/

namespace LambdaQuery

inductive QueryFault where
  | lexical (error : LexError)
  | grammar (error : SyntaxError)
  | typing (error : TypeError)
  | lowering (error : LoweringError)

structure QueryError where
  fault : QueryFault
  /-- The text of the query. -/
  text : String
  /-- The type of the query's parameter, once that matters. -/
  root : Option Ty

namespace QueryError

def span (e : QueryError) : Span :=
  match e.fault with
  | .lexical error => error.span
  | .grammar error => error.span
  | .typing error => error.span
  | .lowering error => error.span

/-- A code that stays the same when a message changes: `L` for tokens, `P` for grammar, `T` for
types, `G` for compiling. -/
def code (e : QueryError) : String :=
  match e.fault with
  | .lexical error =>
    match error.fault with
    | .unexpectedCharacter _ => "L0001"
    | .unterminatedString => "L0002"
    | .malformedNumber _ => "L0003"
  | .grammar _ => "P0001"
  | .typing error => error.fault.code
  | .lowering error => error.fault.code

def message (e : QueryError) : String :=
  match e.fault with
  | .lexical error => error.message
  | .grammar error => error.message
  | .typing error => error.fault.message
  | .lowering error => error.fault.message

/-- A second place that has to do with the error, and what is said of it. -/
def related (e : QueryError) : Option (String × Span) :=
  match e.fault with
  | .grammar error => error.related
  | _ => none

def toString (e : QueryError) : String :=
  "error[" ++ e.code ++ "]: " ++ e.message

/-- What is written under the place of the error. -/
def label (e : QueryError) : String :=
  match e.fault with
  | .lexical _ => "here"
  | .grammar error => "found " ++ error.found.describe
  | .typing error => error.label
  | .lowering _ => "while lowering this"

def help (e : QueryError) : Option String :=
  match e.fault with
  | .typing error => error.fault.help
  | _ => none

/-- The error for a tool: code, message and places. -/
def toJson (e : QueryError) : Json :=
  let primary := Json.object
    [("end", .number e.span.stop), ("primary", .bool true), ("start", .number e.span.start)]
  let related := e.related.toList.map fun (label, span) => Json.object
    [("end", .number span.stop), ("label", .string label), ("primary", .bool false),
      ("start", .number span.start)]
  .object
    [("code", .string e.code),
      ("message", .string e.message),
      ("root_type", (e.root.map fun ty => Json.string ty.toString).getD .null),
      ("severity", .string "error"),
      ("source", .string e.text),
      ("spans", .array (primary :: related))]

end QueryError

/-- The texts of a report to a person. -/
structure Report where
  header : String
  /-- The line and the column of the error, counted from one. -/
  line : Nat
  column : Nat
  /-- What is written under places in the text. -/
  labels : List String
  help : Option String
  note : Option String
deriving Repr

/-- A report points into the text, so that it has no labels if there is no text. -/
def QueryError.report (e : QueryError) : Report :=
  let place := e.span.within e.text.utf8ByteSize
  let position := position (lineStarts e.text) place.start
  { header := "[" ++ e.code ++ "] Error: " ++ e.message
    line := position.1
    column := position.2
    labels := if e.text.isEmpty then [] else e.label :: e.related.toList.map Prod.fst
    help := e.help
    note := e.root.map fun ty => "note: query parameter is " ++ ty.toString }

end LambdaQuery
