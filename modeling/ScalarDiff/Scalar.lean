import ScalarDiff.Decimal.Format
import ScalarDiff.Error

/-!
# Values the engines compute with

The stack machine, the forward sweep and finite differences run on any type of values that
provides the arithmetic below. Two types have it: doubles, the values of every compiled program,
and dynamic values (`ScalarDiff.Datum`), which a caller may write into bytecode by hand.

Every operation gives its result or aborts the call. On doubles the only abort is a quotient
by an exact zero (of either sign); the machine's own domain checks (division by zero, logarithm
of a number that is not positive, square root of a negative number) come before the operations
and are reported, not aborted. Mathematical functions give values of the type, so the
coefficients of the jet rules (`ScalarDiff.Jet`) are computed in the arithmetic of the values
themselves: for data they are doubles, as the functions give doubles whatever their argument.
Comparisons are with the constants `0` and `1`, which is all the engines ever compare with.
-/

namespace ScalarDiff

/-- The arithmetic the engines need from the values on a stack. -/
class Scalar (α : Type) where
  /-- A double as a value. -/
  ofFloat : Float → α
  /-- The value read as a double. -/
  toFloat : α → Except Abort Float
  /-- The sum. -/
  add : α → α → Except Abort α
  /-- The difference. -/
  sub : α → α → Except Abort α
  /-- The product. -/
  mul : α → α → Except Abort α
  /-- The quotient; an exact zero divisor aborts. -/
  div : α → α → Except Abort α
  /-- The negation. -/
  neg : α → Except Abort α
  /-- The absolute value. -/
  abs : α → Except Abort α
  /-- The power. -/
  pow : α → α → Except Abort α
  /-- The sine. -/
  sin : α → Except Abort α
  /-- The cosine. -/
  cos : α → Except Abort α
  /-- The tangent. -/
  tan : α → Except Abort α
  /-- The exponential. -/
  exp : α → Except Abort α
  /-- The natural logarithm of a positive value. -/
  log : α → Except Abort α
  /-- The square root of a value that is not negative. -/
  sqrt : α → Except Abort α
  /-- Whether the value equals zero. -/
  isZero : α → Bool
  /-- Whether the value equals one. -/
  isOne : α → Bool
  /-- Whether the value is finite: neither infinite nor NaN. -/
  isFinite : α → Bool
  /-- Whether the value is at most zero. -/
  atMostZero : α → Except Abort Bool
  /-- Whether the value is below zero. -/
  belowZero : α → Except Abort Bool
  /-- Whether the value is at least zero. -/
  atLeastZero : α → Except Abort Bool
  /-- How the value is written in messages; a value too long to write out aborts. -/
  spelled : α → Except Abort String

/-- Doubles with IEEE arithmetic and the platform's mathematical functions. -/
instance : Scalar Float where
  ofFloat x := x
  toFloat x := .ok x
  add a b := .ok (a + b)
  sub a b := .ok (a - b)
  mul a b := .ok (a * b)
  div a b := if b == 0.0 then .error .zeroDivision else .ok (a / b)
  neg x := .ok (-x)
  abs x := .ok (Float.abs x)
  pow a b := .ok (Float.pow a b)
  sin x := .ok (Float.sin x)
  cos x := .ok (Float.cos x)
  tan x := .ok (Float.tan x)
  exp x := .ok (Float.exp x)
  log x := .ok (Float.log x)
  sqrt x := .ok (Float.sqrt x)
  isZero x := x == 0.0
  isOne x := x == 1.0
  isFinite := Float.isFinite
  atMostZero x := .ok (x ≤ 0.0)
  belowZero x := .ok (x < 0.0)
  atLeastZero x := .ok (x ≥ 0.0)
  spelled x := .ok x.text

end ScalarDiff
