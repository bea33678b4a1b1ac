import ScalarDiff.Datum.Buffer
import ScalarDiff.Machine

/-!
# Evaluating a program over many points

A batch gives one column of values per variable; point `i` takes the `i`-th value of every
column. The points are evaluated in order and the evaluation stops at the first point that
fails, whose failure is reported with its index. Each value is written into an output buffer
before the next point runs, so the buffer holds the values up to the failing point and is left
as it was from there on. The buffer may be of any type that can be written at a position, such
as a list of values or a caller's datum (`ScalarDiff.Datum.setItem`); a write that fails ends
the run.
-/

namespace ScalarDiff

variable {α : Type} [Scalar α]

/-- The point at index `i` of a batch: the `i`-th value of every column, if every column has
one. -/
def Batch.pointAt? {β : Type} (columns : List (List β)) (i : Nat) : Option (List β) :=
  columns.mapM (·[i]?)

/-- Evaluate `left` points from index `i` on into a buffer, writing value `i` at position `i` by
`store` as soon as it is computed: the buffer after the last write, and the failure of the point
that stopped the run, if one did. A point beyond the end of a column, a point that aborts and a
write that fails abort the run, so a buffer too short for the points ends it at the first write
past its end. -/
def Bytecode.fillFrom {β : Type} (p : Bytecode α) (columns : List (List α))
    (store : β → Nat → α → Except Abort β) (i : Nat) : Nat → β → Except Abort (β × Option EvalError)
  | 0, buffer => .ok (buffer, none)
  | left + 1, buffer =>
    match Batch.pointAt? columns i with
    | none => .error .noItem
    | some point =>
      match p.execute point with
      | .error (.reported e) => .ok (buffer, some (.atPoint i e))
      | .error (.aborted a) => .error a
      | .ok v =>
        match store buffer i v with
        | .error a => .error a
        | .ok buffer' => p.fillFrom columns store (i + 1) left buffer'

/-- Evaluate the first `count` points of a batch into a buffer, after checking that there is one
column per variable: the filled buffer (values before the stop written, the rest as given) and
the failure of the point that stopped the run, if one did. -/
def Bytecode.fill {β : Type} (p : Bytecode α) (columns : List (List α)) (count : Nat)
    (store : β → Nat → α → Except Abort β) (buffer : β) : Except Abort (β × Option EvalError) :=
  if (columns.length : Int) ≠ p.arity then .ok (buffer, some (.inputCount p.arity columns.length))
  else p.fillFrom columns store 0 count buffer

/-- Evaluate a batch whose point count is given as a datum. The column count is checked first;
then the count must be an index (`ScalarDiff.Datum.asIndex`), and a negative count runs no
point. -/
def Bytecode.fillCounted {β : Type} (p : Bytecode α) (columns : List (List α)) (count : Datum)
    (store : β → Nat → α → Except Abort β) (buffer : β) : Except Abort (β × Option EvalError) :=
  if (columns.length : Int) ≠ p.arity then .ok (buffer, some (.inputCount p.arity columns.length))
  else do p.fillFrom columns store 0 (← count.asIndex).toNat buffer

end ScalarDiff
