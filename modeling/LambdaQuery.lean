import LambdaQuery.Catalog.Declared
import LambdaQuery.Compiler
import LambdaQuery.Evaluation
import LambdaQuery.Expr.Printer
import LambdaQuery.Lines
import LambdaQuery.Memo
import LambdaQuery.Options.Reading
import LambdaQuery.Proofs.Inference.Soundness
import LambdaQuery.Proofs.Lowering.Correct
import LambdaQuery.Proofs.Safety.Queries
import LambdaQuery.Proofs.Term.RoundTrip
import LambdaQuery.Schema.Reading
import LambdaQuery.Term.Alpha
import LambdaQuery.Term.Printer
import LambdaQuery.Text.Casing
import LambdaQuery.Proofs.Term.Grammar
import LambdaQuery.Proofs.Term.Parsing
import LambdaQuery.Proofs.Lowering.Success
import LambdaQuery.Proofs.Inference.Moves
import LambdaQuery.Proofs.Inference.Traces
import LambdaQuery.Proofs.Inference.Termination
import LambdaQuery.Proofs.Inference.Kept
import LambdaQuery.Proofs.Inference.Operations
import LambdaQuery.Proofs.Term.Nameless
import LambdaQuery.Proofs.Lowering.Conversions
import LambdaQuery.Proofs.Inference.Respelt
import LambdaQuery.Proofs.Inference.Noted
import LambdaQuery.Proofs.Inference.FixedPoint
import LambdaQuery.Proofs.Term.CallOrder
import LambdaQuery.Proofs.Inference.Canonical
import LambdaQuery.Proofs.Inference.FirstCall
import LambdaQuery.Proofs.Lowering.Renaming
import LambdaQuery.Proofs.Lowering.EqualQueries
import LambdaQuery.Proofs.Term.NestingLimit
import LambdaQuery.Proofs.Term.Binding
import LambdaQuery.Proofs.Lowering.ResultType
import LambdaQuery.Proofs.Caching
import LambdaQuery.Proofs.Token.Tiling
import LambdaQuery.Proofs.Ty.Join
import LambdaQuery.Proofs.Term.Spans
import LambdaQuery.Proofs.Inference.Lockstep
import LambdaQuery.Proofs.Inference.Agreement
import LambdaQuery.Proofs.Inference.Parts
import LambdaQuery.Proofs.Inference.Interleaving
import LambdaQuery.Proofs.Inference.Rearranged
import LambdaQuery.Proofs.Inference.Crossing
import LambdaQuery.Proofs.Inference.Verdicts
import LambdaQuery.Proofs.Inference.Layout
import LambdaQuery.Proofs.Inference.Exchange
import LambdaQuery.Proofs.Inference.Symmetry
import LambdaQuery.Proofs.Ty.RoundTrip
import LambdaQuery.Proofs.Hint.Completion
import LambdaQuery.Proofs.Evaluation.TextOrder
import LambdaQuery.Proofs.Safety.MissingFunctions
import LambdaQuery.Proofs.Resolver.Coherence
import LambdaQuery.Proofs.Evaluation.Arithmetic
import LambdaQuery.Proofs.Lowering.Capture
import LambdaQuery.Proofs.Term.ErrorPlaces
import LambdaQuery.Proofs.Inference.Blame
import LambdaQuery.Proofs.ErrorPlaces
import LambdaQuery.Proofs.Evaluation.Sequences
import LambdaQuery.Proofs.Catalog.Literals
import LambdaQuery.Proofs.Value.Records
import LambdaQuery.Proofs.Token.Spacing
import LambdaQuery.Proofs.Term.Spacing
import LambdaQuery.Proofs.Inference.Numbering
import LambdaQuery.Proofs.Lines
