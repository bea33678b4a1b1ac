/-!
# Reading decimal numerals as doubles

A numeral `mantissa × 10^exponent` is read as the double nearest to its exact value, a tie
going to the even significand. A value at or beyond the largest double's rounding boundary reads
as infinity and a value at most half the smallest subnormal reads as zero, so every numeral has a
reading, however long its digit string or large its exponent.

The conversion never computes in floating point. The numeral is a quotient of two natural
numbers; its binary exponent is found by comparing with one power of two, the quotient is rounded
once, half to even, and the bits of the result are written directly.
-/

namespace ScalarDiff.Decimal


/-- Number of decimal digits of `n`; zero has none. -/
def digitCount (n : Nat) : Nat :=
  if n < 10 then (if n = 0 then 0 else 1) else digitCount (n / 10) + 1
termination_by n
decreasing_by omega

/-- The natural number nearest to `num / den`; of two equally near, the even one. -/
def roundHalfEven (num den : Nat) : Nat :=
  let q := num / den
  let r := num % den
  if 2 * r > den ∨ (2 * r = den ∧ q % 2 = 1) then q + 1 else q

/-- Whether `num / den ≥ 2^t`, decided on natural numbers. -/
def atLeastPow2 (num den : Nat) (t : Int) : Bool :=
  if 0 ≤ t then num ≥ den * Nat.pow 2 t.toNat else num * Nat.pow 2 (-t).toNat ≥ den

/-- The largest `t` with `2^t ≤ num / den`, for `num` and `den` positive. -/
def floorLog2 (num den : Nat) : Int :=
  let t : Int := (num.log2 : Int) - den.log2
  if atLeastPow2 num den t then t else t - 1

/-- The bit pattern of positive infinity. -/
def infinityBits : Nat := 2047 * Nat.pow 2 52

/-- The sign-free bit pattern of the double nearest to `num / den`, for `den` positive.

The significand is taken at the power of two that leaves it 53 bits wide, or at the subnormal
exponent `-1074` when the value is smaller; a rounding carry to `2^53` moves one binade up. -/
def nearestBits (num den : Nat) : Nat :=
  if num = 0 then 0
  else
    let q0 : Int := max (floorLog2 num den - 52) (-1074)
    let sig0 := roundHalfEven (num * Nat.pow 2 (-q0).toNat) (den * Nat.pow 2 q0.toNat)
    let (sig, q) := if sig0 = Nat.pow 2 53 then (Nat.pow 2 52, q0 + 1) else (sig0, q0)
    if q > 971 then infinityBits
    else if sig < Nat.pow 2 52 then sig
    else (q + 1075).toNat * Nat.pow 2 52 + (sig - Nat.pow 2 52)

/-- The sign-free bit pattern of the double nearest to `mantissa × 10^exponent`.

Numerals of more than 310 integral digits exceed every double, and numerals below `10^-330`
are below half the smallest subnormal, so both are settled before any power of ten is built. -/
def magnitudeBits (mantissa : Nat) (exponent : Int) : Nat :=
  if mantissa = 0 then 0
  else if (digitCount mantissa : Int) + exponent > 310 then infinityBits
  else if (digitCount mantissa : Int) + exponent < -330 then 0
  else nearestBits (mantissa * Nat.pow 10 exponent.toNat) (Nat.pow 10 (-exponent).toNat)

/-- The double nearest to `mantissa × 10^exponent`, negated when `negative` (zero included). -/
def toFloat (negative : Bool) (mantissa : Nat) (exponent : Int) : Float :=
  Float.ofBits (UInt64.ofNat ((if negative then Nat.pow 2 63 else 0) + magnitudeBits mantissa exponent))

/-- The double nearest to an integer; integers beyond the largest double have none. -/
def intToFloat? (i : Int) : Option Float :=
  let bits := magnitudeBits i.natAbs 0
  if bits = infinityBits then none else some (toFloat (i < 0) i.natAbs 0)

end ScalarDiff.Decimal
