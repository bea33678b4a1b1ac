import ScalarDiff.Bytecode
import ScalarDiff.EvalError
import ScalarDiff.Scalar

/-!
# The stack machine

The machine runs a program's instructions in order on a stack of values, the top first:

* `PUSH_CONST c` pushes `c`; `LOAD_VAR i` pushes input `i`, refusing a position outside the
  inputs;
* a binary operation needs two values, pops the right operand and then the left one, and pushes
  the result; a unary operation needs one value and replaces it;
* `RETURN` needs exactly one value on the stack and returns it; what follows it is never run;
* running out of instructions is a failure.

The arithmetic is that of the values (`ScalarDiff.Scalar`), for doubles IEEE arithmetic with the
platform's mathematical functions, after three domain checks: division by a zero (of either
sign), the logarithm of a value that is not positive (negative zero included) and the square
root of a negative value. NaN passes every check and propagates. Every operation gives a value of
the type of its operands.

The stack depth of a program is known before it runs: constants and inputs add one value,
binary operations take one away, unary operations keep the depth, and `RETURN` must find
exactly one value. Replaying only the depths, with the input positions checked against the
program's declared number of variables, finds the same malformations the machine would, with the
same messages: an input position out of bounds, an underflow, a return at another depth, or a
missing return. The replay stops at the first `RETURN`.
-/

namespace ScalarDiff

open Scalar

variable {α : Type} [Scalar α]

/-- A binary operation on values, left operand first. -/
def BinOp.apply : BinOp → α → α → Except Failure α
  | .add, a, b => Failure.lift (Scalar.add a b)
  | .sub, a, b => Failure.lift (Scalar.sub a b)
  | .mul, a, b => Failure.lift (Scalar.mul a b)
  | .div, a, b => if isZero b then Failure.report .divisionByZero else Failure.lift (Scalar.div a b)
  | .pow, a, b => Failure.lift (Scalar.pow a b)

/-- A unary operation on a value. -/
def UnOp.apply : UnOp → α → Except Failure α
  | .neg, x => Failure.lift (Scalar.neg x)
  | .sin, x => Failure.lift (Scalar.sin x)
  | .cos, x => Failure.lift (Scalar.cos x)
  | .tan, x => Failure.lift (Scalar.tan x)
  | .exp, x => Failure.lift (Scalar.exp x)
  | .log, x => do
    if ← Failure.lift (atMostZero x) then
      Failure.report (.logNonPositive (← Failure.lift (spelled x)))
    else Failure.lift (Scalar.log x)
  | .sqrt, x => do
    if ← Failure.lift (belowZero x) then
      Failure.report (.sqrtNegative (← Failure.lift (spelled x)))
    else Failure.lift (Scalar.sqrt x)
  | .abs, x => Failure.lift (Scalar.abs x)

/-- The input at a position, if the position is among the inputs. -/
def inputAt? {β : Type} (inputs : List β) (i : Int) : Option β :=
  if 0 ≤ i then inputs[i.toNat]? else none

namespace Machine

/-- One instruction other than `RETURN` on a stack, the top first. -/
def step (inputs : List α) (stack : List α) : Instr α → Except Failure (List α)
  | .push c => .ok (c :: stack)
  | .load i =>
    match inputAt? inputs i with
    | some v => .ok (v :: stack)
    | none => Failure.report (.indexOutOfBounds i)
  | .binary op =>
    match stack with
    | b :: a :: rest => (· :: rest) <$> op.apply a b
    | _ => Failure.report (.underflow op.name)
  | .unary op =>
    match stack with
    | x :: rest => (· :: rest) <$> op.apply x
    | [] => Failure.report (.underflow op.name)
  | .ret => .ok stack

/-- Run instructions on a stack until `RETURN`. -/
def run (inputs : List α) : List (Instr α) → List α → Except Failure α
  | [], _ => Failure.report .missingReturn
  | .ret :: _, stack =>
    match stack with
    | [v] => .ok v
    | _ => Failure.report (.returnSize stack.length)
  | i :: rest, stack => do
    let stack' ← step inputs stack i
    run inputs rest stack'

end Machine

/-- Run a program on inputs, after checking that there is one input per variable. -/
def Bytecode.execute (p : Bytecode α) (inputs : List α) : Except Failure α :=
  if (inputs.length : Int) ≠ p.arity then Failure.report (.inputCount p.arity inputs.length)
  else Machine.run inputs p.code []

/-- Replay the stack depth from `depth` over instructions, until the first `RETURN`. -/
def Bytecode.replayDepth {α : Type} (arity : Int) : List (Instr α) → Nat → Except EvalError Unit
  | [], _ => .error .missingReturn
  | .push _ :: rest, depth => replayDepth arity rest (depth + 1)
  | .load i :: rest, depth =>
    if 0 ≤ i ∧ i < arity then replayDepth arity rest (depth + 1)
    else .error (.indexOutOfBounds i)
  | .binary op :: rest, depth =>
    if depth < 2 then .error (.underflow op.name) else replayDepth arity rest (depth - 1)
  | .unary op :: rest, depth =>
    if depth < 1 then .error (.underflow op.name) else replayDepth arity rest depth
  | .ret :: _, depth => if depth = 1 then .ok () else .error (.returnSize depth)

/-- Check a program's stack use: it succeeds exactly when the replay of depths meets no
malformation. -/
def Bytecode.checkStack {α : Type} (p : Bytecode α) : Except EvalError Unit :=
  Bytecode.replayDepth p.arity p.code 0

end ScalarDiff
