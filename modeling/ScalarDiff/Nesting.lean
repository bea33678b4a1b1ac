import ScalarDiff.Datum
import ScalarDiff.Error

/-!
# Nesting limits

Reading and compiling refuse an expression nested beyond a limit. The limit is a number as the
caller gives it: an integer, a truth value (counting as `0` or `1`) or a double. A depth `d`
has reached the limit when `d ≥ limit` in the exact order of numbers, so a fractional limit
acts as the next integer up, `-∞` is reached by every depth, and `+∞` and a NaN limit by none.
Messages show the limit as it was given (`100`, `True`, `2.5`).

A value that is no number has no order with depths: comparing a depth with it aborts, naming
the comparison and the two types.
-/

namespace ScalarDiff

/-- A bound on nesting depth, as a caller gives it. -/
inductive NestingLimit where
  | whole (n : Int)
  | truth (b : Bool)
  | real (x : Float)
  deriving Inhabited, Repr

namespace NestingLimit

/-- Whether a double is at most the depth `d`, compared exactly: a finite double by its binary
value `significand × 2^exponent`, cross-multiplied so that both sides are natural numbers; of the
other doubles only `-∞` is at most every depth. -/
def realReached (x : Float) (d : Nat) : Bool :=
  match Decimal.Binary.ofFloat? x with
  | some b =>
    b.negative ||
      decide (b.significand * Nat.pow 2 b.exponent.toNat ≤ d * Nat.pow 2 (-b.exponent).toNat)
  | none => x.toBits.toNat == Nat.pow 2 63 + Decimal.infinityBits

/-- Whether depth `d` has reached the limit: `d ≥ limit`, compared exactly. -/
def reached (l : NestingLimit) (d : Nat) : Bool :=
  match l with
  | .whole n => decide ((d : Int) ≥ n)
  | .truth b => decide (d ≥ b.toNat)
  | .real x => realReached x d

/-- Whether the limit is above zero, which a context asks before keeping it; NaN is not. -/
def positive : NestingLimit → Bool
  | .whole n => decide (n > 0)
  | .truth b => b
  | .real x => decide (x > 0.0)

/-- The limit as messages show it. -/
def text : NestingLimit → String
  | .whole n => toString n
  | .truth b => if b then "True" else "False"
  | .real x => x.text

/-- The limit a datum gives, if it is a number. -/
def ofDatum? : Datum → Option NestingLimit
  | .int n => some (.whole n)
  | .bool b => some (.truth b)
  | .real x => some (.real x)
  | _ => none

/-- The limit a datum gives, to be compared with depths: a value that is no number aborts, as
the comparison `depth >= limit` does. -/
def ofDatum (d : Datum) : Except Abort NestingLimit :=
  match ofDatum? d with
  | some l => .ok l
  | none => .error (.notComparable ">=" "int" d.typeName)

end NestingLimit

end ScalarDiff
