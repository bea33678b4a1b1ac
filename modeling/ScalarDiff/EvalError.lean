import ScalarDiff.Decimal.Format
import ScalarDiff.Error
import ScalarDiff.Text.Quoted

/-!
# Failures of evaluation

Running a program, differentiating it or evaluating it over many points can fail for a cause
tied to the program (a malformed instruction sequence), to the numbers (an operand outside an
operation's domain, a derivative that is not finite) or to the shape of the inputs. The cause
fixes the class: domain failures are the operands outside a domain; shape failures are the
inputs of the wrong shape; all others are evaluation failures.

Two wrappers add context without changing class or kind: a failure of finite differences says at
which perturbed point it happened, and a failure of a batch says at which point index.
-/

namespace ScalarDiff

/-- The points at which finite differences evaluate. -/
inductive Probe where
  /-- The point itself. -/
  | base
  /-- The point with coordinate `i` raised by the step. -/
  | plus (i : Nat)
  /-- The point with coordinate `i` lowered by the step. -/
  | minus (i : Nat)
  /-- The point with coordinates `i` and `j` both raised by the step. -/
  | plusPlus (i j : Nat)
  deriving Repr, DecidableEq

/-- How a probe point is named in messages. -/
def Probe.label : Probe → String
  | .base => "base point x"
  | .plus i => "perturbed point x + h*e_" ++ toString i
  | .minus i => "perturbed point x - h*e_" ++ toString i
  | .plusPlus i j => "perturbed point x + h*e_" ++ toString i ++ " + h*e_" ++ toString j

/-- Why an evaluation failed. -/
inductive EvalError where
  /-- The number of inputs differs from the number of variables. -/
  | inputCount (expected : Int) (got : Nat)
  /-- An input position outside the inputs. -/
  | indexOutOfBounds (index : Int)
  /-- `RETURN` found a stack of another size than one. -/
  | returnSize (size : Nat)
  /-- An operation found too few values on the stack; the operation's name. -/
  | underflow (name : String)
  /-- The instructions ended without `RETURN`. -/
  | missingReturn
  /-- Division by a zero. -/
  | divisionByZero
  /-- Logarithm of a number that is not positive, as written. -/
  | logNonPositive (shown : String)
  /-- Square root of a negative number, as written. -/
  | sqrtNegative (shown : String)
  /-- A power with a constant exponent whose derivative is not finite, at a base as written. -/
  | powNonFinite (shown : String)
  /-- A power whose exponent varies, at a base that is not positive. -/
  | powBaseNotPositive
  /-- The square root has no derivative at zero. -/
  | sqrtAtZero
  /-- The gradient at the point is not finite. -/
  | gradientNotFinite
  /-- The Hessian at the point is not finite. -/
  | hessianNotFinite
  /-- The inputs are not numbers. -/
  | inputsNotReal
  /-- The inputs are not a flat sequence; the shape they have. -/
  | inputsNotFlat (shape : List Nat)
  /-- The columns of a batch are not numbers of equal count. -/
  | columnsNotNumeric
  /-- The columns of a batch do not form a matrix; the shape they have. -/
  | columnsNotMatrix (shape : List Nat)
  /-- A batch has another number of columns than variables. -/
  | columnCount (expected : Int) (got : Nat)
  /-- A point count that is no integer, as written. -/
  | countNotInteger (written : String)
  /-- A negative point count. -/
  | countNegative (count : Int)
  /-- Columns shorter than the point count. -/
  | columnsTooShort (length count : Int)
  /-- An output shorter than the point count. -/
  | outputTooShort (length count : Int)
  /-- A failure of finite differences at a probe point. -/
  | failedAt (probe : Probe) (inner : EvalError)
  /-- A failure of a batch at a point index. -/
  | atPoint (index : Nat) (inner : EvalError)

namespace EvalError

/-- The class of a failure. -/
def errorClass : EvalError → ErrorClass
  | .divisionByZero | .logNonPositive _ | .sqrtNegative _ | .powBaseNotPositive => .domain
  | .inputsNotFlat _ | .columnsNotNumeric | .columnsNotMatrix _ | .columnCount .. |
    .countNotInteger _ | .countNegative _ | .columnsTooShort .. | .outputTooShort .. => .dimension
  | .failedAt _ e => e.errorClass
  | .atPoint _ e => e.errorClass
  | _ => .evaluation

/-- The kind of a failure: domain failures are of kind domain, all others of kind evaluation. -/
def kind (e : EvalError) : ErrorKind :=
  match e.errorClass with
  | .domain => .domain
  | _ => .evaluation

/-- The point index a failure carries. -/
def pointIndex? : EvalError → Option Nat
  | .atPoint i _ => some i
  | _ => none

/-- The message of a failure. -/
def message : EvalError → String
  | .inputCount e g =>
    "Input count mismatch: expected " ++ toString e ++ ", got " ++ toString g
  | .indexOutOfBounds i => "Variable index " ++ toString i ++ " out of bounds"
  | .returnSize k => "Invalid stack size at return: " ++ toString k
  | .underflow name => "Stack underflow in " ++ name
  | .missingReturn => "Missing return instruction"
  | .divisionByZero => "Division by zero"
  | .logNonPositive x => "Logarithm of non-positive number (" ++ x ++ ")"
  | .sqrtNegative x => "Square root of negative number (" ++ x ++ ")"
  | .powNonFinite a => "Non-finite derivative in POW at base " ++ a
  | .powBaseNotPositive => "POW with a non-constant exponent requires a positive base"
  | .sqrtAtZero => "Derivative of SQRT is undefined at 0"
  | .gradientNotFinite => "Non-finite derivative at evaluation point"
  | .hessianNotFinite => "Non-finite second derivative at evaluation point"
  | .inputsNotReal => "Inputs must be real numbers"
  | .inputsNotFlat shape =>
    "Inputs must be a flat sequence of numbers, got shape " ++ Text.natTuple shape
  | .columnsNotNumeric => "Columns must be equal-length sequences of real numbers"
  | .columnsNotMatrix shape => "Columns must form a 2-D array, got shape " ++ Text.natTuple shape
  | .columnCount e g => "Expected " ++ toString e ++ " columns, got " ++ toString g
  | .countNotInteger w => "Point count must be an integer, got " ++ w
  | .countNegative c => "Point count must be non-negative, got " ++ toString c
  | .columnsTooShort l c =>
    "Columns hold " ++ toString l ++ " points, " ++ toString c ++ " requested"
  | .outputTooShort l c => "Output holds " ++ toString l ++ " slots, " ++ toString c ++ " required"
  | .failedAt p e => "Failed to evaluate at " ++ p.label ++ ": " ++ e.message
  | .atPoint i e => e.message ++ " (at point " ++ toString i ++ ")"

end EvalError

/-- How a computation that does not succeed ends: with a reported failure, which a caller may
answer by trying another method, or with an abort, which ends the call. -/
inductive Failure where
  | reported (e : EvalError)
  | aborted (a : Abort)

/-- A step that can only abort, as a step that can fail. -/
def Failure.lift {α : Type} (r : Except Abort α) : Except Failure α := r.mapError .aborted

/-- A reported failure. -/
def Failure.report {α : Type} (e : EvalError) : Except Failure α := .error (.reported e)

end ScalarDiff
