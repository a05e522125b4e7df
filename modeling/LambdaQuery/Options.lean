import LambdaQuery.Term.Parser

/-!
Options of a compiler: limits, and whether there are standard functions.
-/

namespace LambdaQuery

structure Options where
  /-- How deep a query may nest. -/
  maxDepth : Nat
  standardFunctions : Bool
  /-- How many bytes a query may have. -/
  maxLength : Nat
deriving DecidableEq, Repr

namespace Options

def standard : Options where
  maxDepth := Term.defaultDepth
  standardFunctions := true
  maxLength := 65536

def summary (o : Options) : String :=
  "CompileOptions \x7b max_depth: " ++ Nat.repr o.maxDepth ++ ", standard_functions: " ++
    (if o.standardFunctions then "true" else "false") ++ ", max_input_len: " ++
    Nat.repr o.maxLength ++ " \x7d"

end Options

end LambdaQuery
