import ScalarDiff.Decimal.Read
import ScalarDiff.Decimal.Shortest
import ScalarDiff.Decimal.Format
import ScalarDiff.Text.Printable
import ScalarDiff.Text.Quoted
import ScalarDiff.Text
import ScalarDiff.Decimal.Loose
import ScalarDiff.Error
import ScalarDiff.Datum
import ScalarDiff.Nesting
import ScalarDiff.Source.Token
import ScalarDiff.Source.Problem
import ScalarDiff.Source.Scan
import ScalarDiff.Expr
import ScalarDiff.Expr.Parse
import ScalarDiff.Text.Case
import ScalarDiff.Bytecode
import ScalarDiff.Bytecode.Compile
import ScalarDiff.EvalError
import ScalarDiff.Scalar
import ScalarDiff.Datum.Arith
import ScalarDiff.Datum.Buffer
import ScalarDiff.Machine
import ScalarDiff.Machine.Batch
import ScalarDiff.Tangent
import ScalarDiff.Tensor
import ScalarDiff.Tensor.Read
import ScalarDiff.Tensor.Elementwise
import ScalarDiff.Jet
import ScalarDiff.Jet.Sweep
import ScalarDiff.Difference
import ScalarDiff.Datum.Grid
import ScalarDiff.Session.Mode
import ScalarDiff.Session.Settings
import ScalarDiff.Session.Program
import ScalarDiff.Session.Context
import ScalarDiff.Proofs.Outcome
import ScalarDiff.Proofs.Compile
import ScalarDiff.Proofs.Primal
import ScalarDiff.Proofs.JetRules
import ScalarDiff.Proofs.Symmetry
import ScalarDiff.Proofs.SecondOrder
import ScalarDiff.Proofs.Fallback
import ScalarDiff.Proofs.Grammar
import ScalarDiff.Proofs.Descent
import ScalarDiff.Proofs.Completeness
import ScalarDiff.Proofs.Recognition
import ScalarDiff.Proofs.Aborts
import ScalarDiff.Proofs.StackCheck
import ScalarDiff.Proofs.CallArity
import ScalarDiff.Proofs.Batch
import ScalarDiff.Proofs.Differences
import ScalarDiff.Proofs.Lexing
import ScalarDiff.Proofs.DepthLimit
import ScalarDiff.Proofs.ReaderDepth
import ScalarDiff.Proofs.PostOrder
import ScalarDiff.Proofs.WellFormed
import ScalarDiff.Proofs.ReaderTermination
import ScalarDiff.Proofs.RealReading
import ScalarDiff.Proofs.JetCalculus
import ScalarDiff.Proofs.RealRules
import ScalarDiff.Proofs.TrueDerivatives
