/-!
# Sizes in bytes

A size in bytes is written with a binary prefix. The unit is the power of 1024 (bytes, KiB, MiB,
GiB, TiB, PiB, EiB) below the size's leading bit, moved up one unit when the count of units
rounds to 1024. Bytes are written as a whole number. A count of units that rounds below 1000 is
written with three significant digits, keeping trailing zeros and the decimal point (`8.00`,
`74.5`, `745.`); a larger count is written whole, with the decimal point (`1000.`). Roundings go
to the nearer neighbour, and ties to the even one.
-/

namespace ScalarDiff.Text


/-- The names of the binary units, from bytes up. -/
def byteUnits : List String := ["bytes", "KiB", "MiB", "GiB", "TiB", "PiB", "EiB"]

/-- `num / den` rounded to a whole number, ties to even. -/
def roundHalfEven (num den : Nat) : Nat :=
  let q := num / den
  let r := num % den
  if 2 * r < den then q
  else if 2 * r > den then q + 1
  else if q % 2 = 0 then q else q + 1

/-- A whole number `r` written with its last `d` digits after the decimal point, and the point
written even when no digit follows it. -/
def withDecimals (r d : Nat) : String :=
  let digits := toString r
  let padded := String.ofList (List.replicate (d + 1 - min digits.length (d + 1)) '0') ++ digits
  let whole := padded.toList.take (padded.length - d)
  let frac := padded.toList.drop (padded.length - d)
  String.ofList whole ++ "." ++ String.ofList frac

/-- The number `num / den`, at least `1` and below `1000` after rounding, with three significant
digits. -/
def threeDigits (num den : Nat) : String :=
  let d := if num ≥ 100 * den then 0 else if num ≥ 10 * den then 1 else 2
  let r := roundHalfEven (num * Nat.pow 10 d) den
  if r ≥ 1000 ∧ d > 0 then withDecimals (roundHalfEven (num * Nat.pow 10 (d - 1)) den) (d - 1)
  else withDecimals r d

/-- A size in bytes with a binary prefix. -/
def byteSize (bytes : Nat) : String :=
  let first := max (Nat.log2 bytes) 1 / 10
  let unit := if roundHalfEven bytes (Nat.pow 2 (10 * first)) = 1024 then first + 1 else first
  let den := Nat.pow 2 (10 * unit)
  let name := byteUnits.getD unit "EiB"
  if unit = 0 then toString bytes ++ " " ++ name
  else if roundHalfEven bytes den < 1000 then threeDigits bytes den ++ " " ++ name
  else toString (roundHalfEven bytes den) ++ ". " ++ name

end ScalarDiff.Text
