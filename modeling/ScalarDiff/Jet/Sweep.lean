import ScalarDiff.Jet

/-!
# Forward-mode differentiation of a program

A sweep runs a program exactly as the machine does, with a jet in every stack slot instead of a
value: constants carry zero derivatives, input `i` carries the `i`-th unit gradient, and every
operation applies its jet rule. The checks of the machine (input positions, underflow, the size
of the stack at `RETURN`, a missing `RETURN`, the domain checks) come in the same order, joined
by the sweep's own: the square root at zero, a power whose derivative is not finite, a varying
exponent on a base that is not positive.

At `RETURN` the gradient must be finite. The gradient comes from a first-order sweep; the Hessian
from a second-order sweep, and must be finite too.
-/

namespace ScalarDiff

variable {α V M : Type} [Scalar α] [Tangent α V M]

namespace Jet

/-- One instruction other than `RETURN` on a stack of jets, the top first. -/
def step (n : Nat) (second : Bool) (point : List α) (stack : List (Jet α V M)) :
    Instr α → Except Failure (List (Jet α V M))
  | .push c => .ok (const n second c :: stack)
  | .load i =>
    match inputAt? point i with
    | some v => .ok (input n second i.toNat v :: stack)
    | none => Failure.report (.indexOutOfBounds i)
  | .binary op =>
    match stack with
    | b :: a :: rest => (· :: rest) <$> binary op a b
    | _ => Failure.report (.underflow op.name)
  | .unary op =>
    match stack with
    | x :: rest => (· :: rest) <$> unary op x
    | [] => Failure.report (.underflow op.name)
  | .ret => .ok stack

/-- Run instructions on a stack of jets until `RETURN`, whose jet must have a finite
gradient. -/
def sweep (n : Nat) (second : Bool) (point : List α) :
    List (Instr α) → List (Jet α V M) → Except Failure (Jet α V M)
  | [], _ => Failure.report .missingReturn
  | .ret :: _, stack =>
    match stack with
    | [j] => do
      if ← Failure.lift (Tangent.gradFinite (α := α) j.grad) then .ok j
      else Failure.report .gradientNotFinite
    | _ => Failure.report (.returnSize stack.length)
  | i :: rest, stack => do
    let stack' ← step n second point stack i
    sweep n second point rest stack'

end Jet

/-- The jet of a program's result at a point, after checking that there is one coordinate per
variable. -/
def Bytecode.jet (p : Bytecode α) (point : List α) (second : Bool) :
    Except Failure (Jet α V M) :=
  if (point.length : Int) ≠ p.arity then Failure.report (.inputCount p.arity point.length)
  else Jet.sweep point.length second point p.code []

/-- The gradient of a program at a point, by a first-order sweep, its entries read as
doubles. -/
def Bytecode.gradient (p : Bytecode α) (point : List α) : Except Failure V := do
  let j : Jet α V M ← p.jet point false
  Failure.lift (Tangent.gradReal (α := α) j.grad)

/-- The Hessian of a program at a point, by a second-order sweep, its entries read as doubles;
it must be finite. -/
def Bytecode.hessian (p : Bytecode α) (point : List α) : Except Failure M := do
  let j : Jet α V M ← p.jet point true
  let h ← Failure.lift (Tangent.hessReal (α := α) (j.hess.getD (Tangent.zeroHess (α := α) 0)))
  if ← Failure.lift (Tangent.hessFinite (α := α) h) then .ok h else Failure.report .hessianNotFinite

end ScalarDiff
