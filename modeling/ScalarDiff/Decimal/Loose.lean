import ScalarDiff.Decimal.Read
import ScalarDiff.Text

/-!
# Numerals in free text

Settings and arguments may give numbers as text. Such a numeral may use the decimal digits of any
script, may group its digits with single underscores between two digits (`1_000`), and may be
surrounded by white space: the ASCII spaces (space, tab, line feed, vertical tab, form feed,
carriage return) and the blanks outside ASCII. The ASCII information separators `U+001C` to
`U+001F`, blanks for trimming elsewhere, are not white space here. A real numeral is an optionally
signed decimal with an optional point and exponent, at least one digit before the exponent (`1.`,
`.5`, `2e-3`), or one of the words `inf`, `infinity`, `nan` in any case. An integer numeral is an
optionally signed run of at most 4300 digits, leading zeros counted; a longer run is refused.
Anything else in the text makes it no numeral.
-/

namespace ScalarDiff.Decimal

open ScalarDiff.Text

/-- The text with blanks outside ASCII made spaces and digits of every script made ASCII digits;
`none` if it holds any other character outside ASCII. -/
def asciiForm? (s : String) : Option (List Char) :=
  s.toList.mapM fun c =>
    if c.toNat < 128 then some c
    else if isBlank c then some ' '
    else (digitValue? c).map fun d => Char.ofNat (48 + d)

/-- Whether an ASCII character is white space around a numeral. -/
def isAsciiSpace (c : Char) : Bool := c = ' ' || (9 ≤ c.toNat && c.toNat ≤ 13)

/-- Whether every underscore stands between two ASCII digits. -/
def underscoresBetweenDigits (cs : List Char) : Bool :=
  let isD (c : Char) := '0' ≤ c && c ≤ '9'
  let step : Char × Bool → Char → Char × Bool := fun (prev, ok) c =>
    if c = '_' then (c, ok && isD prev)
    else (c, ok && (prev ≠ '_' || isD c))
  let (last, ok) := cs.foldl step (' ', true)
  ok && last ≠ '_'

/-- The ASCII form of a numeral, blanks trimmed and underscores removed, if the underscores are
well placed. -/
def cleaned? (s : String) : Option (List Char) := do
  let cs ← asciiForm? s
  if underscoresBetweenDigits cs then
    let trimmed := ((cs.dropWhile isAsciiSpace).reverse.dropWhile isAsciiSpace).reverse
    some (trimmed.filter (· ≠ '_'))
  else none

/-- A sign at the front: whether it is a minus, and the rest. -/
def splitSign (cs : List Char) : Bool × List Char :=
  match cs with
  | '-' :: rest => (true, rest)
  | '+' :: rest => (false, rest)
  | _ => (false, cs)

/-- The value of a run of ASCII digits. -/
def asciiDigitsValue (ds : List Char) : Nat :=
  ds.foldl (fun acc d => 10 * acc + (d.toNat - 48)) 0

/-- Whether a character is an ASCII digit. -/
def isAsciiDigit (c : Char) : Bool := '0' ≤ c && c ≤ '9'

/-- The lower-case form of ASCII letters. -/
def lowerAscii (cs : List Char) : List Char :=
  cs.map fun c => if 'A' ≤ c && c ≤ 'Z' then Char.ofNat (c.toNat + 32) else c

/-- An unsigned decimal: digits, optional point and digits, at least one digit, optional
exponent with digits. -/
def unsignedDecimal? (cs : List Char) : Option (Nat × Int) :=
  let whole := cs.takeWhile isAsciiDigit
  let r1 := cs.drop whole.length
  let (fraction, r2) : List Char × List Char :=
    match r1 with
    | '.' :: rest => (rest.takeWhile isAsciiDigit, rest.drop (rest.takeWhile isAsciiDigit).length)
    | _ => ([], r1)
  if whole.isEmpty && fraction.isEmpty then none
  else
    let mantissa := asciiDigitsValue (whole ++ fraction)
    match r2 with
    | [] => some (mantissa, -(fraction.length : Int))
    | e :: rest =>
      if e = 'e' || e = 'E' then
        let (neg, ds) := splitSign rest
        if !ds.isEmpty && ds.all isAsciiDigit then
          let v : Int := asciiDigitsValue ds
          some (mantissa, (if neg then -v else v) - fraction.length)
        else none
      else none

/-- The double a real numeral denotes. -/
def readReal? (s : String) : Option Float := do
  let cs ← cleaned? s
  let (neg, body) := splitSign cs
  let word := lowerAscii body
  if word = "inf".toList || word = "infinity".toList then
    some (if neg then -(1.0 / 0.0) else 1.0 / 0.0)
  else if word = "nan".toList then some (0.0 / 0.0)
  else
    let (m, e) ← unsignedDecimal? body
    some (toFloat neg m e)

/-- The longest digit run an integer numeral may have. -/
def integerDigitLimit : Nat := 4300

/-- The integer an integer numeral denotes. -/
def readInteger? (s : String) : Option Int := do
  let cs ← cleaned? s
  let (neg, body) := splitSign cs
  if !body.isEmpty && body.all isAsciiDigit && body.length ≤ integerDigitLimit then
    let v : Int := asciiDigitsValue body
    some (if neg then -v else v)
  else none

end ScalarDiff.Decimal
