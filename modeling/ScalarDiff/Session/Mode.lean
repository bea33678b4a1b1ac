import ScalarDiff.Datum
import ScalarDiff.Text
import ScalarDiff.Text.Case

/-!
# Differentiation modes

A program differentiates in one of three modes: forward sweeps only, finite differences only,
or forward sweeps with finite differences as the fallback when a sweep reports a failure. The
modes are numbered `0`, `1`, `2` in that order: automatic, forward, finite differences.

A mode is named in two ways. A text is trimmed, upper-cased and has its hyphens turned into
underscores, and must then be exactly `AUTO`, `FORWARD` or `FINITE_DIFF`. Any other value must
equal one of the three numbers, as integers, whole doubles and truth values can.
-/

namespace ScalarDiff

/-- How a program computes derivatives. -/
inductive Mode where
  /-- Forward sweeps, falling back to finite differences when a sweep reports a failure. -/
  | auto
  /-- Forward sweeps only. -/
  | forward
  /-- Central finite differences only. -/
  | finiteDiff
  deriving Repr, DecidableEq

namespace Mode

/-- The name a mode is shown under. -/
def name : Mode → String
  | .auto => "AUTO"
  | .forward => "FORWARD"
  | .finiteDiff => "FINITE_DIFF"

/-- The mode with a given number. -/
def ofNumber? (i : Int) : Option Mode :=
  match i with
  | 0 => some .auto
  | 1 => some .forward
  | 2 => some .finiteDiff
  | _ => none

/-- The mode a text names, after trimming, upper-casing and turning hyphens into underscores. -/
def ofText? (s : String) : Option Mode :=
  match Text.hyphensToUnderscores (Text.upper (Text.trimBlanks s)) with
  | "AUTO" => some .auto
  | "FORWARD" => some .forward
  | "FINITE_DIFF" => some .finiteDiff
  | _ => none

/-- The mode a value names: a text by its name, anything else by the number it equals. -/
def ofDatum? : Datum → Option Mode
  | .text s => ofText? s
  | d => d.asInt?.bind ofNumber?

end Mode

end ScalarDiff
