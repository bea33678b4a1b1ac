import ScalarDiff.Datum.Buffer
import ScalarDiff.Datum.Grid
import ScalarDiff.Difference
import ScalarDiff.Jet.Sweep
import ScalarDiff.Machine.Batch
import ScalarDiff.Session.Settings

/-!
# Compiled programs

A program is compiled bytecode together with the text it came from, the names of its
variables, and its own differentiation settings: the mode and the finite-difference step, both
copied from the context at compile time and changeable afterwards.

Every operation first reads its numeric arguments as arrays (`ScalarDiff.Datum.toGrid`):

* a point must be a flat array; data that is no array of doubles is refused as not real, an
  array of another dimension as not flat, and then the number of coordinates must be the number
  of variables;
* derivatives follow the mode. In automatic mode a forward sweep runs first and, only when it
  reports a failure, finite differences run instead; an abort is never answered by the fallback.
  The Hessian is returned flattened row by row;
* a batch takes one column per variable and an output buffer, checked in a fixed order before
  any point runs (see `ScalarDiff.Program.batch`). A failing point stops the batch; the buffer
  keeps the values before it and its given slots from there on. The buffer is written as
  `ScalarDiff.Datum.setItem` says, so a buffer that takes no items aborts at the first write.
-/

namespace ScalarDiff


/-- A compiled expression with its differentiation settings. -/
structure Program where
  code : Bytecode Float
  expression : String
  names : List String
  mode : Mode
  epsilon : Float

/-- How a batch ends. -/
inductive BatchResult where
  /-- A check failed before any point ran. -/
  | refused (e : EvalError)
  /-- Every point ran; the filled buffer. -/
  | finished (buffer : Datum)
  /-- A point failed; the failure and the buffer filled up to that point. -/
  | stopped (e : EvalError) (buffer : Datum)

namespace Program

/-- The number of variables. -/
def arity (p : Program) : Int := p.code.arity

/-- A point read from nested data: a flat array of doubles. -/
def pointOf (d : Datum) : Except Failure (List Float) :=
  match d.toGrid with
  | .error a => .error (.aborted a)
  | .ok none => .error (.reported .inputsNotReal)
  | .ok (some g) =>
    if g.dims.length = 1 then .ok g.entries else .error (.reported (.inputsNotFlat g.dims))

/-- The value of the program at a point. -/
def evaluate (p : Program) (inputs : Datum) : Except Failure Float := do
  let x ← pointOf inputs
  p.code.execute x

/-- Choose a method by mode: in automatic mode the fallback runs only after a reported
failure of the forward sweep. -/
def dispatch {α : Type} (mode : Mode) (forward byDifferences : Except Failure α) :
    Except Failure α :=
  match mode with
  | .forward => forward
  | .finiteDiff => byDifferences
  | .auto =>
    match forward with
    | .error (.reported _) => byDifferences
    | r => r

/-- The gradient of the program at a point. -/
def gradient (p : Program) (point : Datum) : Except Failure (List Float) := do
  let x ← pointOf point
  dispatch p.mode (p.code.gradient x) (p.code.gradientByDifferences p.epsilon x)

/-- The Hessian of the program at a point, flattened row by row. -/
def hessian (p : Program) (point : Datum) : Except Failure (List Float) := do
  let x ← pointOf point
  let h ← dispatch p.mode (p.code.hessian x) (p.code.hessianByDifferences p.epsilon x)
  pure h.flatten

/-- The largest machine-sized integer, which bounds the dimensions of an array and its size in
bytes. -/
def maxArraySize : Nat := Nat.pow 2 63 - 1

/-- The size in bytes from which an array is never allocated: memory is taken to hold less than
64 GiB. -/
def allocationLimit : Nat := Nat.pow 2 36

/-- A fresh array of `count` NaN doubles. A count beyond every machine-sized integer, a size in
bytes beyond it, and a size that cannot be allocated are refused, in that order. -/
def nanArray (count : Nat) : Except Abort Datum :=
  if count > maxArraySize then .error .dimensionTooLarge
  else if 8 * count > maxArraySize then .error .arrayTooBig
  else if 8 * count ≥ allocationLimit then .error (.cannotAllocate count)
  else .ok (.list (List.replicate count (.real (0.0 / 0.0))))

/-- The output buffer of a batch of `count` points: a fresh array of NaN slots when none is
given, the given buffer when its length covers the points. A buffer without a length aborts. -/
def bufferOf (out : Datum) (count : Int) : Except Abort (Except EvalError Datum) :=
  match out with
  | .none => .ok <$> nanArray count.toNat
  | d =>
    match d.length? with
    | some k => if (k : Int) < count then .ok (.error (.outputTooShort k count)) else .ok (.ok d)
    | none => .error (.notSized d.typeName)

/-- Evaluate the program at many points given as one column per variable, writing the values
into an output buffer. The checks, in order: the columns are an array of doubles; an empty array
for a program without variables counts as zero columns of zero points; the array is
two-dimensional; it has one column per variable; the point count (the column length when none
is given) is an integer, is not negative and, for a program with variables, is at most the
column length; the buffer, when given, has a slot for every point. -/
def batch (p : Program) (columns : Datum) (count : Datum) (out : Datum) :
    Except Abort BatchResult := do
  let some g ← columns.toGrid | pure (.refused .columnsNotNumeric)
  let dims := if g.size = 0 ∧ p.arity = 0 then [0, 0] else g.dims
  match dims with
  | [rows, width] =>
    if (rows : Int) ≠ p.arity then pure (.refused (.columnCount p.arity rows))
    else
      let n? : Option Int := match count with
        | .none => some width
        | d => d.asCount?
      match n? with
      | none => pure (.refused (.countNotInteger count.written))
      | some n =>
        if n < 0 then pure (.refused (.countNegative n))
        else if p.arity > 0 ∧ n > width then pure (.refused (.columnsTooShort width n))
        else
          match ← bufferOf out n with
          | .error e => pure (.refused e)
          | .ok buffer =>
            let store (b : Datum) (i : Nat) (v : Float) := b.setItem i (.real v)
            match ← p.code.fill (g.rows rows width) n.toNat store buffer with
            | (filled, some e) => pure (.stopped e filled)
            | (filled, none) => pure (.finished filled)
  | _ => pure (.refused (.columnsNotMatrix dims))

/-- The program with another mode, if the value names one. -/
def withMode? (p : Program) (mode : Datum) : Option Program :=
  (fun m => { p with mode := m }) <$> Mode.ofDatum? mode

/-- The program with another finite-difference step, if the value is a usable one. -/
def withEpsilon? (p : Program) (epsilon : Datum) : Except Abort (Option Program) := do
  let step ← Settings.step? epsilon
  pure ((fun h => { p with epsilon := h }) <$> step)

/-- How a program describes itself: its text, its variables, its mode and its number of
instructions. -/
def describe (p : Program) : String :=
  "Program(expression=" ++ Text.quoted p.expression ++ ", variables=" ++
    Text.quotedTuple p.names ++ ", mode=" ++ p.mode.name ++ ", instructions=" ++
    toString p.code.code.length ++ ")"

end Program

end ScalarDiff
