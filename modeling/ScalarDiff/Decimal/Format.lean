import ScalarDiff.Decimal.Shortest

/-!
# Writing doubles as text

Every number that this library writes into a message, a listing or an answer is the shortest
decimal that reads back as the double (see `ScalarDiff.Decimal.Shortest`), laid out by one
notation record: positional from `1e-4` up to below `1e16`, scientific outside that range, with a
signed exponent of at least two digits, `.0` kept on integral values, and the words `inf` and
`nan` for the values without digits. Zero keeps its sign; NaN is written without one.
-/

namespace ScalarDiff.Decimal

/-- How a double is laid out once its shortest digits are known. -/
structure Notation where
  /-- Smallest power of ten, as a scientific exponent, written positionally. -/
  positionalFrom : Int
  /-- Largest power of ten, as a scientific exponent, written positionally. -/
  positionalUpTo : Int
  /-- Letter between the digits and the exponent. -/
  exponentMark : String
  /-- Least number of exponent digits; shorter exponents get leading zeros. -/
  exponentWidth : Nat
  /-- Whether a non-negative exponent is written with a plus sign. -/
  exponentPlus : Bool
  /-- Whether an integral value keeps a fractional part `.0`. -/
  pointZero : Bool
  /-- Text of the positive infinity. -/
  infinity : String
  /-- Text of every NaN. -/
  notANumber : String

/-- The notation of all numbers this library writes: `0.0001`, `1e-05`, `1e+16`, `2.0`,
`1234.5`, `-0.0`, `inf`, `nan`. -/
def Notation.standard : Notation :=
  { positionalFrom := -4, positionalUpTo := 15, exponentMark := "e", exponentWidth := 2,
    exponentPlus := true, pointZero := true, infinity := "inf", notANumber := "nan" }

/-- The decimal digits of `n`, most significant first; `0` is written `0`. -/
def digitsText (n : Nat) : String := toString n

/-- `n` zeros. -/
def zeros (n : Nat) : String := String.ofList (List.replicate n '0')

/-- Lay out the digits `d` of a positive value `0.d × 10^point` positionally. -/
def Notation.positional (fmt : Notation) (d : String) (point : Int) : String :=
  let len : Int := d.length
  if point ≤ 0 then "0." ++ zeros (-point).toNat ++ d
  else if point < len then
    String.ofList (d.toList.take point.toNat) ++ "." ++ String.ofList (d.toList.drop point.toNat)
  else d ++ zeros (point - len).toNat ++ (if fmt.pointZero then ".0" else "")

/-- Lay out the digits `d` of a positive value `d₀.d₁… × 10^sci` in scientific form. -/
def Notation.scientific (fmt : Notation) (d : String) (sci : Int) : String :=
  let lead := String.ofList (d.toList.take 1)
  let rest := String.ofList (d.toList.drop 1)
  let mantissa := if rest.isEmpty then lead else lead ++ "." ++ rest
  let sign := if sci < 0 then "-" else if fmt.exponentPlus then "+" else ""
  let e := digitsText sci.natAbs
  mantissa ++ fmt.exponentMark ++ sign ++ zeros (fmt.exponentWidth - e.length) ++ e

/-- Lay out a positive decimal. -/
def Notation.layout (fmt : Notation) (s : Scientific) : String :=
  let d := digitsText s.digits
  let sci := s.exponent + d.length - 1
  if fmt.positionalFrom ≤ sci ∧ sci ≤ fmt.positionalUpTo then fmt.positional d (sci + 1)
  else fmt.scientific d sci

/-- The text of a double in the given notation. -/
def Notation.write (fmt : Notation) (x : Float) : String :=
  match Binary.ofFloat? x with
  | none => if x.isNaN then fmt.notANumber else if x < 0 then "-" ++ fmt.infinity else fmt.infinity
  | some b =>
    let body := if b.significand = 0 then fmt.positional "0" 1 else fmt.layout b.shortest
    if b.negative then "-" ++ body else body

end ScalarDiff.Decimal

/-- The text of a double as this library writes it: shortest round-trip digits in the
standard notation. -/
def Float.text (x : Float) : String := ScalarDiff.Decimal.Notation.standard.write x
