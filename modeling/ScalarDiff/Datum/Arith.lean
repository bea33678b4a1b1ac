import ScalarDiff.Datum
import ScalarDiff.Scalar

/-!
# Arithmetic on loosely typed values

Bytecode written by hand may push any datum, and a point may hold any datum, so the engines can
also run on data. Their arithmetic is that of a dynamically typed numeric tower:

* truth values count as the integers `1` and `0`;
* sums, differences and products of two integers are exact integers; with a double on either
  side the integer is first converted to the nearest double, and an integer beyond every double
  aborts;
* the quotient of two integers is the double nearest to the exact rational, zero signed by the
  operands' signs; a zero integer divisor aborts, and so does a quotient beyond every double.
  Any other quotient is a quotient of doubles, and a zero divisor aborts;
* negation and absolute value keep integers integers;
* texts and lists join with texts and lists of their own kind, and repeat by an integer count;
  any other pairing of a value that is no number aborts with the operator and the types;
* mathematical functions convert their argument to a double first, refusing values that are no
  numbers, and give doubles; the exponential of an integer beyond every double is infinite, and the logarithm of a
  huge integer is taken from its binary exponent and a significand in `[0.5, 1)`;
* the power follows the IEEE power of the two doubles, except that an overflowing result and a
  zero base raised to a negative power take their sign from the parity of the exponent, which
  only a double can tell: an integer exponent aborts there;
* comparisons with zero are exact and refuse values that are no numbers.
-/

namespace ScalarDiff


namespace Datum

/-- A datum that is a number: an integer (truth values among them) or a double. -/
inductive Number where
  | whole (i : Int)
  | real (x : Float)

/-- The number a datum is, if it is one. -/
def number? : Datum → Option Number
  | .bool b => some (.whole (if b then 1 else 0))
  | .int i => some (.whole i)
  | .real x => some (.real x)
  | _ => Option.none

/-- An integer as the nearest double; an integer beyond every double aborts. -/
def wholeToFloat (i : Int) : Except Abort Float :=
  match Decimal.intToFloat? i with
  | some x => .ok x
  | Option.none => .error .integerTooLarge

/-- A number as a double. -/
def Number.toFloat : Number → Except Abort Float
  | .whole i => wholeToFloat i
  | .real x => .ok x

/-- A sum, difference or product of two numbers: exact on two integers, on doubles otherwise. -/
def Number.combine (onWhole : Int → Int → Int) (onReal : Float → Float → Float) :
    Number → Number → Except Abort Datum
  | .whole i, .whole j => .ok (.int (onWhole i j))
  | a, b => do
    let x ← a.toFloat
    let y ← b.toFloat
    pure (.real (onReal x y))

/-- The quotient of two integers: the double nearest to the exact rational. -/
def wholeQuotient (i j : Int) : Except Abort Datum :=
  if j = 0 then .error .integerZeroDivision
  else
    let bits := Decimal.nearestBits i.natAbs j.natAbs
    if bits = Decimal.infinityBits then .error .quotientTooLarge
    else
      let negative := (decide (i < 0)) != (decide (j < 0))
      .ok (.real (Float.ofBits (UInt64.ofNat ((if negative then Nat.pow 2 63 else 0) + bits))))

/-- A quotient of two numbers. -/
def Number.divide : Number → Number → Except Abort Datum
  | .whole i, .whole j => wholeQuotient i j
  | a, b => do
    let x ← a.toFloat
    let y ← b.toFloat
    if y == 0.0 then throw .zeroDivision else pure (.real (x / y))

/-- Whether a datum is a sequence that joins and repeats: a text or a list. -/
def isSequence : Datum → Bool
  | .text _ => true
  | .list _ => true
  | _ => false

/-- The longest text or list a repetition builds; a longer one cannot be held in memory. -/
def repetitionLimit : Nat := Nat.pow 2 31

/-- A text or list repeated `count` times, the count given as a datum. The count must be an
integer of machine size; the result's length must be of machine size too (a text that is not
aborts as too long, a list as out of memory), and within `repetitionLimit`. -/
def repeated (s : Datum) (count : Datum) : Except Abort Datum :=
  match count with
  | .int _ | .bool _ =>
    let n : Int := (count.asCount?).getD 0
    if n < -(Int.pow 2 63) ∨ n ≥ Int.pow 2 63 then .error .countTooLarge
    else
      match s with
      | .text t =>
        if n ≤ 0 ∨ t.length = 0 then .ok (.text "")
        else if t.length > (Nat.pow 2 63 - 1) / n.toNat then .error .textTooLong
        else if t.length * n.toNat > repetitionLimit then .error .outOfMemory
        else .ok (.text (String.join (List.replicate n.toNat t)))
      | .list xs =>
        if n ≤ 0 ∨ xs.length = 0 then .ok (.list [])
        else if xs.length * n.toNat > repetitionLimit then .error .outOfMemory
        else .ok (.list (List.replicate n.toNat xs).flatten)
      | _ => .error (.unsupportedOperands "*" s.typeName count.typeName)
  | _ => .error (.nonIntegerCount count.typeName)

/-- The sum of two data. A text or list on the left joins only its own kind. -/
def add (a b : Datum) : Except Abort Datum :=
  match number? a, number? b with
  | some x, some y => Number.combine (· + ·) (· + ·) x y
  | _, _ =>
    match a, b with
    | .text s, .text t => .ok (.text (s ++ t))
    | .list xs, .list ys => .ok (.list (xs ++ ys))
    | .text _, _ => .error (.notConcatenable "str" b.typeName)
    | .list _, _ => .error (.notConcatenable "list" b.typeName)
    | _, _ => .error (.unsupportedOperands "+" a.typeName b.typeName)

/-- The difference of two data. -/
def sub (a b : Datum) : Except Abort Datum :=
  match number? a, number? b with
  | some x, some y => Number.combine (· - ·) (· - ·) x y
  | _, _ => .error (.unsupportedOperands "-" a.typeName b.typeName)

/-- The product of two data. A text or list repeats by an integer on either side, the left
operand taken as the sequence when both could be. -/
def mul (a b : Datum) : Except Abort Datum :=
  match number? a, number? b with
  | some x, some y => Number.combine (· * ·) (· * ·) x y
  | _, _ =>
    if a.isSequence then repeated a b
    else if b.isSequence then repeated b a
    else .error (.unsupportedOperands "*" a.typeName b.typeName)

/-- The quotient of two data. -/
def div (a b : Datum) : Except Abort Datum :=
  match number? a, number? b with
  | some x, some y => x.divide y
  | _, _ => .error (.unsupportedOperands "/" a.typeName b.typeName)

/-- The negation of a datum. -/
def neg (d : Datum) : Except Abort Datum :=
  match number? d with
  | some (.whole i) => .ok (.int (-i))
  | some (.real x) => .ok (.real (-x))
  | Option.none => .error (.badOperand "unary -" d.typeName)

/-- The absolute value of a datum. -/
def abs (d : Datum) : Except Abort Datum :=
  match number? d with
  | some (.whole i) => .ok (.int (Int.natAbs i))
  | some (.real x) => .ok (.real (Float.abs x))
  | Option.none => .error (.badOperand "abs()" d.typeName)

/-- A datum as the argument of a mathematical function: its double, or nothing for an integer
beyond every double. A value that is no number aborts. -/
def reading? (d : Datum) : Except Abort (Option Float) :=
  match number? d with
  | some (.whole i) => .ok (Decimal.intToFloat? i)
  | some (.real x) => .ok (some x)
  | Option.none => .error (.notReal d.typeName)

/-- A datum converted to a double for a mathematical function. -/
def strict (d : Datum) : Except Abort Float := do
  match ← reading? d with
  | some x => pure x
  | Option.none => throw .integerTooLarge

/-- Whether a datum is an odd integer, as the power's exceptional cases ask: it is converted to a
double first (which may abort) and must be finite; then a double is odd by the parity of the
whole number it equals, while an integer or a truth value aborts, since only doubles answer
whether they are whole. -/
def isOddInteger (d : Datum) : Except Abort Bool := do
  let x ← strict d
  if !x.isFinite then pure false
  else
    match d with
    | .real _ =>
      match asInt? (.real x) with
      | some k => pure (k % 2 == 1)
      | Option.none => pure false
    | _ => throw (.noAttribute d.typeName "is_integer")

/-- A comparison of a datum with zero, exact on numbers; a value that is no number aborts,
reported with the operator's symbol. -/
def compareZero (symbol : String) (onWhole : Int → Bool) (onReal : Float → Bool) (d : Datum) :
    Except Abort Bool :=
  match number? d with
  | some (.whole i) => .ok (onWhole i)
  | some (.real x) => .ok (onReal x)
  | Option.none => .error (.notComparable symbol d.typeName "float")

/-- Whether a datum is a number below zero. -/
def belowZero (d : Datum) : Except Abort Bool := compareZero "<" (· < 0) (· < 0.0) d

/-- Whether a datum equals zero; a value that is no number does not. -/
def isZero (d : Datum) : Bool :=
  match number? d with
  | some (.whole i) => i == 0
  | some (.real x) => x == 0.0
  | Option.none => false

/-- Whether a datum equals one; a value that is no number does not. -/
def isOne (d : Datum) : Bool :=
  match number? d with
  | some (.whole i) => i == 1
  | some (.real x) => x == 1.0
  | Option.none => false

/-- Whether a datum is finite, as the derivative checks ask of their coefficients, which are
always doubles: a double is finite when it is neither infinite nor NaN. -/
def finite : Datum → Bool
  | .real x => x.isFinite
  | _ => true

mutual

/-- Whether every integer in a datum can be written out: none has more decimal digits than an
integer numeral may have. -/
def writable : Datum → Bool
  | .int i => i.natAbs < Nat.pow 10 Decimal.integerDigitLimit
  | .list items => writableItems items
  | .dict entries => writableEntries entries
  | _ => true

/-- Whether every integer in a list's items can be written out. -/
def writableItems : List Datum → Bool
  | [] => true
  | d :: ds => writable d && writableItems ds

/-- Whether every integer in a table's values can be written out. -/
def writableEntries : List (String × Datum) → Bool
  | [] => true
  | (_, d) :: es => writable d && writableEntries es

end

/-- A datum written out as messages show it. An integer of more decimal digits than an integer
numeral may have cannot be written out, which aborts. -/
def spelledOut (d : Datum) : Except Abort String :=
  if d.writable then .ok d.written else .error .tooManyDigits

/-- The power of an overflowing result: negative infinity for a negative base and an odd
exponent, positive infinity otherwise. -/
def overflowPower (a b : Datum) : Except Abort Float := do
  if ← belowZero a then
    if ← isOddInteger b then pure (-(1.0 / 0.0)) else pure (1.0 / 0.0)
  else pure (1.0 / 0.0)

/-- The power of a base outside the domain: a zero base gives an infinity, signed as the base
for an odd exponent, and any other base NaN. -/
def domainPower (a b : Datum) : Except Abort Float := do
  if isZero a then
    if ← isOddInteger b then
      let negativeZero : Bool := match a with
        | .real x => decide (x.toBits ≥ UInt64.pow 2 63)
        | _ => false
      pure (if negativeZero then -(1.0 / 0.0) else 1.0 / 0.0)
    else pure (1.0 / 0.0)
  else pure (0.0 / 0.0)

/-- The power of two data as a double. The base is converted first, then the exponent; an
integer beyond every double takes the overflow branch. -/
def power (a b : Datum) : Except Abort Float := do
  match ← reading? a with
  | Option.none => overflowPower a b
  | some x =>
    match ← reading? b with
    | Option.none => overflowPower a b
    | some y =>
      let r := Float.pow x y
      if !(x.isFinite && y.isFinite) then pure r
      else if r.isNaN then domainPower a b
      else if r.isInf then
        if x == 0.0 then domainPower a b else overflowPower a b
      else pure r

/-- The exponential of a datum; an integer beyond every double gives infinity. -/
def exp (d : Datum) : Except Abort Float := do
  match ← reading? d with
  | some x => pure (Float.exp x)
  | Option.none => pure (1.0 / 0.0)

/-- The natural logarithm of a huge positive integer: with `n ≈ m · 2^e`, `m` in `[0.5, 1)`
the double nearest to `n / 2^e`, it is `log m + log 2 · e`. -/
def hugeLog (n : Nat) : Float :=
  let e := n.log2 + 1
  let m := Float.ofBits (UInt64.ofNat (Decimal.nearestBits n (Nat.pow 2 e)))
  let (m, e) := if m == 1.0 then (0.5, e + 1) else (m, e)
  Float.log m + Float.log 2.0 * Float.ofNat e

/-- The natural logarithm of a datum; a value that is not positive aborts. -/
def log (d : Datum) : Except Abort Float :=
  match number? d with
  | some (.whole i) =>
    if i ≤ 0 then .error .mathDomain
    else
      match Decimal.intToFloat? i with
      | some x => .ok (Float.log x)
      | Option.none => .ok (hugeLog i.natAbs)
  | some (.real x) => if x ≤ 0.0 then .error .mathDomain else .ok (Float.log x)
  | Option.none => .error (.notReal d.typeName)

/-- The square root of a datum; a negative value aborts. -/
def sqrt (d : Datum) : Except Abort Float := do
  let x ← strict d
  if x < 0.0 then throw .mathDomain else pure (Float.sqrt x)

end Datum

/-- Data with the arithmetic of a dynamically typed numeric tower. -/
instance : Scalar Datum where
  ofFloat := .real
  toFloat := Datum.toReal
  add := Datum.add
  sub := Datum.sub
  mul := Datum.mul
  div := Datum.div
  neg := Datum.neg
  abs := Datum.abs
  pow a b := Datum.real <$> Datum.power a b
  sin d := (fun x => Datum.real (Float.sin x)) <$> Datum.strict d
  cos d := (fun x => Datum.real (Float.cos x)) <$> Datum.strict d
  tan d := (fun x => Datum.real (Float.tan x)) <$> Datum.strict d
  exp d := Datum.real <$> Datum.exp d
  log d := Datum.real <$> Datum.log d
  sqrt d := Datum.real <$> Datum.sqrt d
  isZero := Datum.isZero
  isOne := Datum.isOne
  isFinite := Datum.finite
  atMostZero := Datum.compareZero "<=" (· ≤ 0) (· ≤ 0.0)
  belowZero := Datum.belowZero
  atLeastZero := Datum.compareZero ">=" (· ≥ 0) (· ≥ 0.0)
  spelled := Datum.spelledOut

end ScalarDiff
