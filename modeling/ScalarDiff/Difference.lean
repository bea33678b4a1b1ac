import ScalarDiff.Machine

/-!
# Central finite differences

With a step `h`, the gradient and Hessian of a program at a point `x` are estimated from runs of
the machine at perturbed copies of the point, where `x[i ↦ v]` is `x` with coordinate `i`
replaced by `v`, computed in floating point:

```
grad i    = (f x[i ↦ xᵢ+h] − f x[i ↦ xᵢ−h]) / (2h)
hess i i  = ((f x[i ↦ xᵢ+h] − 2 f x) + f x[i ↦ xᵢ−h]) / (h·h)
hess i j  = hess j i = (((f x[i ↦ xᵢ+h, j ↦ xⱼ+h] − f x[i ↦ xᵢ+h]) − f x[j ↦ xⱼ+h]) + f x) / (h·h)
```

for `i < j`. The point's coordinates are read as doubles first, and every run of the machine gives
one of its values, so the arithmetic of a gradient entry and of a diagonal entry is that of the
values (`ScalarDiff.Scalar`), each entry read as a double at the end; the arithmetic of a mixed
entry is that of doubles. The runs happen in a fixed order: for the Hessian the point itself first,
then for each `i` the raised and the lowered copy, then the pairs `(i, j)` in lexicographic order;
for the gradient the raised and lowered copies only. The first failing run ends the estimate, its
failure wrapped with the name of the perturbed point. A diagonal entry with `h·h` an exact zero
aborts the computation; an off-diagonal one is then infinite or NaN.

The perturbed copies are not built afresh: every estimate keeps one work vector, reset to the
point when the estimate starts, and moves its coordinates in place. For a coordinate `i` it saves
`xᵢ`, writes `xᵢ+h` and runs, writes `xᵢ−h` and runs, and writes `xᵢ` back. For the mixed
entries it raises coordinate `i`, keeps it raised while it raises, runs and restores each `j > i`
in turn, and then restores `i`. Every loop returns the work vector it leaves behind.
-/

namespace ScalarDiff

open Scalar

variable {α : Type} [Scalar α]

namespace Difference

/-- One run of the machine at a probe point, its failure wrapped with the probe's name. -/
def probe (p : Bytecode α) (site : Probe) (x : List Float) : Except Failure α :=
  match p.execute (x.map ofFloat) with
  | .ok v => .ok v
  | .error (.reported e) => Failure.report (.failedAt site e)
  | .error (.aborted a) => .error (.aborted a)

/-- The coordinate `i` of a point. -/
def coord (x : List Float) (i : Nat) : Float := x.getD i 0.0

/-- The central difference `(fp - fm) / (2h)` read as a double. -/
def slope (h : Float) (fp fm : α) : Except Abort Float := do
  let d ← sub fp fm
  Scalar.div d (ofFloat (2.0 * h)) >>= toFloat

/-- The second difference `((fp - 2 f0) + fm) / (h·h)` read as a double. -/
def curvature (h : Float) (f0 fp fm : α) : Except Abort Float := do
  let twice ← Scalar.mul (ofFloat 2.0) f0
  let d ← sub fp twice
  let s ← add d fm
  Scalar.div s (ofFloat (h * h)) >>= toFloat

/-- One coordinate of the gradient: coordinate `i` of the work vector raised by `h` for one run
and lowered by `h` for another, then restored; the central difference of the two runs, and the
work vector as it is left. -/
def gradientAt (p : Bytecode α) (h : Float) (i : Nat) (work : List Float) :
    Except Failure (Float × List Float) := do
  let xi := coord work i
  let work := work.set i (xi + h)
  let fp ← probe p (.plus i) work
  let work := work.set i (xi - h)
  let fm ← probe p (.minus i) work
  let work := work.set i xi
  let g ← Failure.lift (slope h fp fm)
  pure (g, work)

/-- The gradient entries from coordinate `i` on, `left` of them, and the work vector as they
leave it. -/
def gradientFrom (p : Bytecode α) (h : Float) (i : Nat) (work : List Float) :
    Nat → Except Failure (List Float × List Float)
  | 0 => .ok ([], work)
  | left + 1 => do
    let (g, work) ← gradientAt p h i work
    let (rest, work) ← gradientFrom p h (i + 1) work left
    pure (g :: rest, work)

/-- One diagonal entry: coordinate `i` of the work vector raised by `h` for one run and lowered
by `h` for another, then restored; the raised value read as a double, the second difference
about the value `f0` at the point, and the work vector as it is left. -/
def diagonalAt (p : Bytecode α) (h : Float) (f0 : α) (i : Nat) (work : List Float) :
    Except Failure ((Float × Float) × List Float) := do
  let xi := coord work i
  let work := work.set i (xi + h)
  let fp ← probe p (.plus i) work
  let work := work.set i (xi - h)
  let fm ← probe p (.minus i) work
  let work := work.set i xi
  let raised ← Failure.lift (toFloat fp)
  let d ← Failure.lift (curvature h f0 fp fm)
  pure ((raised, d), work)

/-- The raised values and diagonal entries from coordinate `i` on, `left` of them, and the work
vector as they leave it. -/
def diagonalFrom (p : Bytecode α) (h : Float) (f0 : α) (i : Nat) (work : List Float) :
    Nat → Except Failure (List (Float × Float) × List Float)
  | 0 => .ok ([], work)
  | left + 1 => do
    let (e, work) ← diagonalAt p h f0 i work
    let (rest, work) ← diagonalFrom p h f0 (i + 1) work left
    pure (e :: rest, work)

/-- The mixed entries `(i, k)` of `left` columns `k` from `j` on, on a work vector whose
coordinate `i` is raised: coordinate `k` raised by `h` for one run and then restored; and the
work vector as they leave it. -/
def mixedRow (p : Bytecode α) (h : Float) (f0 : α) (raised : List Float) (i j : Nat)
    (work : List Float) : Nat → Except Failure (List (Nat × Float) × List Float)
  | 0 => .ok ([], work)
  | left + 1 => do
    let xj := coord work j
    let work := work.set j (xj + h)
    let fij ← probe p (.plusPlus i j) work
    let work := work.set j xj
    let a ← Failure.lift (toFloat fij)
    let b ← Failure.lift (toFloat f0)
    let m := (a - raised.getD i 0.0 - raised.getD j 0.0 + b) / (h * h)
    let (rest, work) ← mixedRow p h f0 raised i (j + 1) work left
    pure ((j, m) :: rest, work)

/-- All mixed entries `(i, j)` with `i < j < n`, rows from `i` on, `left` rows: coordinate `i`
of the work vector raised by `h` for its whole row and then restored; and the work vector as they
leave it. -/
def mixedFrom (p : Bytecode α) (h : Float) (f0 : α) (raised : List Float) (n i : Nat)
    (work : List Float) : Nat → Except Failure (List (Nat × Nat × Float) × List Float)
  | 0 => .ok ([], work)
  | left + 1 => do
    let xi := coord work i
    let (row, work) ← mixedRow p h f0 raised i (i + 1) (work.set i (xi + h)) (n - (i + 1))
    let work := work.set i xi
    let (rest, work) ← mixedFrom p h f0 raised n (i + 1) work left
    pure (row.map (fun (j, m) => (i, j, m)) ++ rest, work)

/-- The matrix with the given diagonal and the given entries above it, mirrored below. -/
def assemble (n : Nat) (diag : List Float) (mixed : List (Nat × Nat × Float)) : List (List Float) :=
  (List.range n).map fun i => (List.range n).map fun j =>
    if i = j then diag.getD i 0.0
    else
      let (a, b) := if i < j then (i, j) else (j, i)
      match mixed.find? (fun e => e.1 = a ∧ e.2.1 = b) with
      | some e => e.2.2
      | none => 0.0

end Difference

/-- The central-difference gradient of a program at a point with step `h`, its work vector reset
to the point. -/
def Bytecode.gradientByDifferences (p : Bytecode α) (h : Float) (point : List α) :
    Except Failure (List Float) :=
  if (point.length : Int) ≠ p.arity then Failure.report (.inputCount p.arity point.length)
  else do
    let x ← Failure.lift (point.mapM toFloat)
    let (g, _) ← Difference.gradientFrom p h 0 x x.length
    pure g

/-- The central-difference Hessian of a program at a point with step `h`, its work vector reset
to the point and passed from the diagonal to the mixed entries. -/
def Bytecode.hessianByDifferences (p : Bytecode α) (h : Float) (point : List α) :
    Except Failure (List (List Float)) :=
  if (point.length : Int) ≠ p.arity then Failure.report (.inputCount p.arity point.length)
  else do
    let x ← Failure.lift (point.mapM toFloat)
    let n := x.length
    let f0 ← Difference.probe p .base x
    let (diag, work) ← Difference.diagonalFrom p h f0 0 x n
    let raised := diag.map (·.1)
    let (mixed, _) ← Difference.mixedFrom p h f0 raised n 0 work n
    pure (Difference.assemble n (diag.map (·.2)) mixed)

end ScalarDiff
