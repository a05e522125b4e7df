import LambdaQuery.Inference
import LambdaQuery.Options
import LambdaQuery.QueryError

/-!
The compiler: from the text of a query to a compiled lambda.
-/

namespace LambdaQuery

structure Compiler where
  catalog : Catalog
  /-- What decides about names, the first that can. -/
  resolvers : List Resolver
  options : Options

namespace Compiler

/-- Properties first, then methods, then the standard functions unless they are turned off. -/
def withOptions (catalog : Catalog) (options : Options) : Compiler where
  catalog := catalog
  resolvers := [.properties catalog, .methods catalog] ++
    if options.standardFunctions then [.standard] else []
  options := options

/-- Let a resolver decide where no other can. -/
def addResolver (c : Compiler) (resolver : Resolver) : Compiler :=
  { c with resolvers := c.resolvers ++ [resolver] }

def resolver (c : Compiler) : Resolver :=
  .chain c.resolvers

/-- Read a query without looking at types. -/
def parse (c : Compiler) (text : String) : Except QueryError (Term Span) :=
  let length := text.utf8ByteSize
  let limit := c.options.maxLength
  if limit < length then
    let error : SyntaxError := ⟨.tooLong length limit, ⟨limit, length⟩, .eof⟩
    .error ⟨.grammar error, text, none⟩
  else
    match Term.ofText c.options.maxDepth text with
    | .ok t => .ok t
    | .error (.lexical e) => .error ⟨.lexical e, text, none⟩
    | .error (.grammar e) => .error ⟨.grammar e, text, none⟩

/-- Read a query and infer its types. The body of the lambda has to convert to the expected type,
if there is one. -/
def infer (c : Compiler) (text : String) (root : Ty) (expected : Option Ty) :
    Except QueryError Inferred := do
  let query ← c.parse text
  return LambdaQuery.infer c.catalog c.resolver query root expected

/-- Read a query and check its types. -/
def check (c : Compiler) (text : String) (root : Ty) (expected : Option Ty) :
    Except QueryError (Term Typed) := do
  let inferred ← c.infer text root expected
  inferred.outcome.mapError fun e => ⟨.typing e, text, some root⟩

/-- Compile a query to a lambda over the root type. -/
def build (c : Compiler) (text : String) (root : Ty) (expected : Option Ty) :
    Except QueryError LambdaExpr := do
  let t ← c.check text root expected
  (LambdaExpr.ofTyped c.catalog t).mapError fun e => ⟨.lowering e, text, some root⟩

/-- Compile a filter. -/
def buildPredicate (c : Compiler) (text : String) (root : Ty) : Except QueryError LambdaExpr :=
  c.build text root (some .bool)

/-- The uses of names that reach the observers of the compiler while it checks a query, one line
for each. -/
def observed (c : Compiler) (text : String) (root : Ty) (expected : Option Ty) : List String :=
  match c.infer text root expected with
  | .ok inferred => c.resolver.observed inferred.asked
  | .error _ => []

def summary (c : Compiler) : String :=
  "QueryCompiler \x7b chain: " ++ Resolver.chainSummary c.resolvers ++ ", options: " ++
    c.options.summary ++ ", .. \x7d"

end Compiler

end LambdaQuery
