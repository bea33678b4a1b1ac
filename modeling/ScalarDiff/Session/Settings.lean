import ScalarDiff.Datum
import ScalarDiff.Session.Mode

/-!
# Defaults from the environment

A new context takes its defaults from three texts of its environment, each read leniently after
trimming its blanks: a text that is missing, blank or unusable gives the built-in default
instead of a failure.

* The nesting limit: an integer numeral (a sign and underscores between digits allowed) that is
  positive; default `100`.
* The finite-difference step: a real numeral that is finite and positive; default `1e-5`.
* The differentiation mode: case-folded and with hyphens turned into underscores, one of `auto`,
  `forward`, `finite_diff`; default `auto`.

A step given explicitly is read as a double (which may abort the call) and must be finite and
positive too.
-/

namespace ScalarDiff

/-- The texts an environment gives for the three settings, each possibly unset. -/
structure Env where
  maxDepth : Option String
  epsilon : Option String
  mode : Option String

/-- The environment that sets nothing. -/
def Env.empty : Env := ⟨none, none, none⟩

namespace Settings

/-- The built-in nesting limit. -/
def defaultDepth : Int := 100

/-- The built-in finite-difference step. -/
def defaultEpsilon : Float := 1e-5

/-- The trimmed text of a setting; blank when it is not set. -/
def trimmed (text : Option String) : String :=
  Text.trimBlanks (text.getD "")

/-- Whether a step is usable: finite and positive. -/
def usableStep (x : Float) : Bool := x.isFinite && x > 0.0

/-- The nesting limit an environment sets. -/
def maxDepth (env : Env) : Int :=
  match Decimal.readInteger? (trimmed env.maxDepth) with
  | some i => if i > 0 then i else defaultDepth
  | none => defaultDepth

/-- The finite-difference step an environment sets. -/
def epsilon (env : Env) : Float :=
  match Decimal.readReal? (trimmed env.epsilon) with
  | some x => if usableStep x then x else defaultEpsilon
  | none => defaultEpsilon

/-- The differentiation mode an environment sets. -/
def mode (env : Env) : Mode :=
  match Text.hyphensToUnderscores (Text.fold (trimmed env.mode)) with
  | "forward" => .forward
  | "finite_diff" => .finiteDiff
  | _ => .auto

/-- A value offered as a finite-difference step: the step if it reads as a usable double, none
if it reads as no double or an unusable one; an integer beyond every double aborts. -/
def step? (d : Datum) : Except Abort (Option Float) :=
  match d.toReal with
  | .ok x => .ok (if usableStep x then some x else none)
  | .error .integerTooLarge => .error .integerTooLarge
  | .error _ => .ok none

end Settings

end ScalarDiff
