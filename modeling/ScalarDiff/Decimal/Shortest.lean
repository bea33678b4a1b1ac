import ScalarDiff.Decimal.Read

/-!
# The shortest decimal that reads back as a double

A finite double is an exact binary number `significand × 2^exponent`. The reals that read back
as it form an interval around it, reaching halfway to each neighbouring double; its ends belong
to it when the significand is even, since a tie is read to the even neighbour. The decimal
written for the double is the one with the fewest significant digits inside that interval, and of
two such the one nearer to the double.

For each digit count `p = 1, 2, …, 17` only the two neighbours of the double on the grid of
`p`-digit decimals need testing: if any point of that grid lies in the interval, so does one of
them. Seventeen digits always suffice. All comparisons are exact on natural numbers.
-/

namespace ScalarDiff.Decimal


/-- A finite double as an exact binary number, the sign apart. -/
structure Binary where
  negative : Bool
  significand : Nat
  exponent : Int
  deriving Repr, DecidableEq

/-- The exact binary value of a finite double; infinities and NaN have none. -/
def Binary.ofFloat? (x : Float) : Option Binary :=
  let bits := x.toBits.toNat
  let field : Nat := (bits / Nat.pow 2 52) % Nat.pow 2 11
  let fraction : Nat := bits % Nat.pow 2 52
  let negative := decide (bits ≥ Nat.pow 2 63)
  if field = 2047 then none
  else if field = 0 then some ⟨negative, fraction, -1074⟩
  else some ⟨negative, fraction + Nat.pow 2 52, (field : Int) - 1075⟩

/-- A decimal `digits × 10^exponent`, the sign apart. -/
structure Scientific where
  digits : Nat
  exponent : Int
  deriving Repr, DecidableEq

/-- The largest `t` with `10^t ≤ num / den`, for `num` and `den` positive. -/
def floorLog10 (num den : Nat) : Int :=
  if den ≤ num then (digitCount (num / den) : Int) - 1
  else
    let j := digitCount den - digitCount num
    if num * Nat.pow 10 j ≥ den then -(j : Int) else -((j : Int) + 1)

/-- Drop trailing zeros of the digits, raising the exponent to keep the value. -/
def Scientific.trim (s : Scientific) : Scientific :=
  if s.digits ≠ 0 ∧ s.digits % 10 = 0 then
    Scientific.trim ⟨s.digits / 10, s.exponent + 1⟩
  else s
termination_by s.digits
decreasing_by omega

/-- The rounding interval of a binary value, scaled to whole numbers.

`value`, `low` and `high` are the double and the ends of its interval times `2^scale`;
`closed` says whether the ends belong to it. -/
structure Interval where
  value : Nat
  low : Nat
  high : Nat
  scale : Nat
  closed : Bool

/-- The interval of reals that read back as `significand × 2^exponent`.

The gap below is half as wide as the gap above exactly when the significand is the smallest of
a binade above the subnormals. -/
def Interval.ofBinary (b : Binary) : Interval :=
  let scale := (-b.exponent).toNat + 2
  let unit := Nat.pow 2 (b.exponent + scale).toNat
  let value := b.significand * unit
  let narrowBelow := b.significand = Nat.pow 2 52 ∧ b.exponent > -1074
  let low := value - (if narrowBelow then unit / 4 else unit / 2)
  { value, low, high := value + unit / 2, scale, closed := b.significand % 2 = 0 }

/-- Whether the decimal `c × 10^k` lies in the interval. -/
def Interval.holds (iv : Interval) (c : Nat) (k : Int) : Bool :=
  let point := c * Nat.pow 10 k.toNat * Nat.pow 2 iv.scale
  let grain := Nat.pow 10 (-k).toNat
  if iv.closed then iv.low * grain ≤ point ∧ point ≤ iv.high * grain
  else iv.low * grain < point ∧ point < iv.high * grain

/-- Whether `c × 10^k` is strictly nearer to the interval's value than `d × 10^k`. -/
def Interval.nearer (iv : Interval) (c d : Nat) (k : Int) : Bool :=
  let v := iv.value * Nat.pow 10 (-k).toNat
  let at_ (x : Nat) := x * Nat.pow 10 k.toNat * Nat.pow 2 iv.scale
  let dist (x : Nat) := if at_ x ≥ v then at_ x - v else v - at_ x
  dist c < dist d

/-- The two neighbours of the value on the grid `10^k`, the lower first. -/
def Interval.neighbours (iv : Interval) (k : Int) : Nat × Nat :=
  let c := iv.value * Nat.pow 10 (-k).toNat / (Nat.pow 10 k.toNat * Nat.pow 2 iv.scale)
  (c, c + 1)

/-- The best decimal of `p` significant digits in the interval, if one lies there; of two, the
nearer, and of two equally near, the one with the even last digit. -/
def Interval.pick? (iv : Interval) (top : Int) (p : Nat) : Option Scientific :=
  let k := top - p + 1
  let (c, d) := iv.neighbours k
  match iv.holds c k, iv.holds d k with
  | true, true =>
    if iv.nearer c d k then some ⟨c, k⟩
    else if iv.nearer d c k then some ⟨d, k⟩
    else if c % 2 = 0 then some ⟨c, k⟩ else some ⟨d, k⟩
  | true, false => some ⟨c, k⟩
  | false, true => some ⟨d, k⟩
  | false, false => none

/-- Try digit counts from `p` up to `17`, stopping at the first that has a decimal. -/
def Interval.search (iv : Interval) (top : Int) (p : Nat) : Nat → Option Scientific
  | 0 => none
  | fuel + 1 =>
    match iv.pick? top p with
    | some s => some s
    | none => iv.search top (p + 1) fuel

/-- The shortest decimal that reads back as the positive binary value `b`, nearest of the
shortest, with trailing zeros dropped. A zero significand gives the digits `0`. -/
def Binary.shortest (b : Binary) : Scientific :=
  if b.significand = 0 then ⟨0, 0⟩
  else
    let iv := Interval.ofBinary b
    let top := floorLog10 iv.value (Nat.pow 2 iv.scale)
    match iv.search top 1 17 with
    | some s => s.trim
    | none =>
      let k := top - 16
      (⟨(iv.neighbours k).1, k⟩ : Scientific).trim

end ScalarDiff.Decimal
