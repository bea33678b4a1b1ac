import ScalarDiff.Difference
import ScalarDiff.Proofs.Fallback
import ScalarDiff.Session.Settings

/-!
# Where evaluation on doubles can abort

The engines report their failures as values, and on doubles almost every step they take is
total: sums, products, powers and mathematical functions give a double whatever their operands,
and the machine checks a divisor for zero before it divides. The one step that aborts is a
quotient by an exact zero of either sign that no check guards. This module finds every such
quotient:

* the machine never aborts (`Bytecode.execute_float_ne_aborted`);
* the forward sweep aborts only at an instruction it reaches where `Instr.ZeroQuotientAt` says:
  inside the logarithm's second derivative `-1/(y·y)`, in `LOG` and in a power with a varying
  exponent, at a value `y` not at most zero whose square rounds to zero; or inside the square
  root's first derivative `0.5/s`, at a value neither negative nor zero whose root `s` is zero,
  which IEEE arithmetic never gives but the rule as written does not exclude;
* a finite-difference gradient divides by `2h` and aborts only when that rounds to zero;
* a finite-difference Hessian divides its diagonal entries by `h·h` and aborts only when that
  rounds to zero, which happens for every step below about `1.6e-162`, finite and positive though
  each is.

`evaluation_aborts_only_on_zero_quotients` gathers the five; `aborts_at_tiny_values` shows two of
the aborts happening at a finite positive step and at a positive input.
-/

namespace ScalarDiff

/-! ## The machine -/

/-- A run of the machine on doubles never aborts. -/
theorem Machine.run_float_ne_aborted (x : List Float) (c : Abort) (code : List (Instr Float))
    (s : List Float) : Machine.run x code s ≠ .error (.aborted c) := by
  induction code generalizing s with
  | nil => simp [Machine.run, Failure.report]
  | cons i rest ih =>
    by_cases hi : i = .ret
    · subst hi
      unfold Machine.run
      split <;> simp [Failure.report]
    · rw [Machine.run_cons_of_ne_ret x hi]
      cases hs : Machine.step x s i with
      | error f =>
        rw [error_bind]
        intro hf
        cases hf
        exact Machine.step_float_ne_aborted x s i c hs
      | ok s' =>
        rw [ok_bind]
        exact ih s'

/-- The machine on doubles never aborts: every failure of a program is reported. -/
theorem Bytecode.execute_float_ne_aborted (p : Bytecode Float) (x : List Float) (c : Abort) :
    p.execute x ≠ .error (.aborted c) := by
  unfold Bytecode.execute
  split
  · simp [Failure.report]
  · exact Machine.run_float_ne_aborted x c p.code []

/-! ## Finite differences -/

namespace Difference

variable {p : Bytecode Float} {h : Float} {c : Abort}

theorem probe_float_ne_aborted (p : Bytecode Float) (site : Probe) (x : List Float) (c : Abort) :
    probe p site x ≠ .error (.aborted c) := by
  have hrun := Bytecode.execute_float_ne_aborted p (x.map Scalar.ofFloat) c
  unfold probe
  split
  · simp
  · simp [Failure.report]
  · next a ha =>
    rw [ha] at hrun
    simpa using hrun

/-- The central difference aborts only on a doubled step that rounds to zero. -/
theorem slope_aborted {fp fm : Float} (hs : slope h fp fm = .error c) :
    c = .zeroDivision ∧ (2.0 * h == 0.0) = true := by
  by_cases h2 : (2.0 * h == 0.0) = true <;>
    simp_all [slope, Scalar.sub, Scalar.div, Scalar.ofFloat, Scalar.toFloat]

/-- The second difference aborts only on a squared step that rounds to zero. -/
theorem curvature_aborted {f0 fp fm : Float} (hs : curvature h f0 fp fm = .error c) :
    c = .zeroDivision ∧ (h * h == 0.0) = true := by
  by_cases h2 : (h * h == 0.0) = true <;>
    simp_all [curvature, Scalar.mul, Scalar.sub, Scalar.add, Scalar.div, Scalar.ofFloat,
      Scalar.toFloat]

theorem gradientAt_aborted {w : List Float} {i : Nat}
    (hg : gradientAt p h i w = .error (.aborted c)) :
    c = .zeroDivision ∧ (2.0 * h == 0.0) = true := by
  simp only [gradientAt] at hg
  -- the two probes never abort, so the abort comes from the slope
  rcases bind_eq_error.1 hg with hp | ⟨fp, -, hg⟩
  · exact absurd hp (probe_float_ne_aborted p _ _ c)
  rcases bind_eq_error.1 hg with hm | ⟨fm, -, hg⟩
  · exact absurd hm (probe_float_ne_aborted p _ _ c)
  rcases bind_eq_error.1 hg with hs | ⟨g, -, hg⟩
  · cases hsl : slope h fp fm with
    | ok g => simp [hsl] at hs
    | error a =>
      rw [hsl, Failure.lift_error] at hs
      cases hs
      exact slope_aborted hsl
  · cases hg

theorem gradientFrom_aborted {w : List Float} {i left : Nat}
    (hg : gradientFrom p h i w left = .error (.aborted c)) :
    c = .zeroDivision ∧ (2.0 * h == 0.0) = true := by
  induction left generalizing i w with
  | zero => cases hg
  | succ left ih =>
    simp only [gradientFrom] at hg
    rcases bind_eq_error.1 hg with ha | ⟨⟨g, w1⟩, -, hg⟩
    · exact gradientAt_aborted ha
    rcases bind_eq_error.1 hg with hr | ⟨⟨rest, w2⟩, -, hg⟩
    · exact ih hr
    · cases hg

theorem diagonalAt_aborted {f0 : Float} {w : List Float} {i : Nat}
    (hg : diagonalAt p h f0 i w = .error (.aborted c)) :
    c = .zeroDivision ∧ (h * h == 0.0) = true := by
  simp only [diagonalAt] at hg
  rcases bind_eq_error.1 hg with hp | ⟨fp, -, hg⟩
  · exact absurd hp (probe_float_ne_aborted p _ _ c)
  rcases bind_eq_error.1 hg with hm | ⟨fm, -, hg⟩
  · exact absurd hm (probe_float_ne_aborted p _ _ c)
  -- reading the raised value as a double never fails
  simp only [Scalar.toFloat_float, Failure.lift_ok, ok_bind] at hg
  rcases bind_eq_error.1 hg with hs | ⟨d, -, hg⟩
  · cases hcu : curvature h f0 fp fm with
    | ok d => simp [hcu] at hs
    | error a =>
      rw [hcu, Failure.lift_error] at hs
      cases hs
      exact curvature_aborted hcu
  · cases hg

theorem diagonalFrom_aborted {f0 : Float} {w : List Float} {i left : Nat}
    (hg : diagonalFrom p h f0 i w left = .error (.aborted c)) :
    c = .zeroDivision ∧ (h * h == 0.0) = true := by
  induction left generalizing i w with
  | zero => cases hg
  | succ left ih =>
    simp only [diagonalFrom] at hg
    rcases bind_eq_error.1 hg with ha | ⟨⟨e, w1⟩, -, hg⟩
    · exact diagonalAt_aborted ha
    rcases bind_eq_error.1 hg with hr | ⟨⟨rest, w2⟩, -, hg⟩
    · exact ih hr
    · cases hg

theorem mixedRow_ne_aborted (f0 : Float) (raised : List Float) (i : Nat) :
    ∀ j w left, mixedRow p h f0 raised i j w left ≠ .error (.aborted c)
  | _, _, 0 => by simp [mixedRow]
  | j, w, left + 1 => by
    intro hm
    simp only [mixedRow] at hm
    rcases bind_eq_error.1 hm with hp | ⟨fij, -, hm⟩
    · exact probe_float_ne_aborted p _ _ c hp
    simp only [Scalar.toFloat_float, Failure.lift_ok, ok_bind] at hm
    rcases bind_eq_error.1 hm with hr | ⟨⟨rest, w1⟩, -, hm⟩
    · exact mixedRow_ne_aborted f0 raised i (j + 1) _ left hr
    · cases hm

theorem mixedFrom_ne_aborted (f0 : Float) (raised : List Float) (n : Nat) :
    ∀ i w left, mixedFrom p h f0 raised n i w left ≠ .error (.aborted c)
  | _, _, 0 => by simp [mixedFrom]
  | i, w, left + 1 => by
    intro hm
    simp only [mixedFrom] at hm
    rcases bind_eq_error.1 hm with hr | ⟨⟨row, w1⟩, -, hm⟩
    · exact mixedRow_ne_aborted f0 raised i _ _ _ hr
    rcases bind_eq_error.1 hm with hr | ⟨⟨rest, w2⟩, -, hm⟩
    · exact mixedFrom_ne_aborted f0 raised n (i + 1) _ left hr
    · cases hm

end Difference

/-- On doubles reading the coordinates of a point never fails. -/
theorem List.mapM_toFloat_float (x : List Float) :
    x.mapM (Scalar.toFloat : Float → Except Abort Float) = .ok x := by
  induction x with
  | nil => rfl
  | cons y ys ih =>
    rw [List.mapM_cons, Scalar.toFloat_float, ih]
    rfl

/-- A finite-difference gradient on doubles aborts only when the doubled step rounds to zero. -/
theorem Bytecode.gradientByDifferences_aborted {p : Bytecode Float} {h : Float} {x : List Float}
    {c : Abort} (hg : p.gradientByDifferences h x = .error (.aborted c)) :
    c = .zeroDivision ∧ (2.0 * h == 0.0) = true := by
  unfold Bytecode.gradientByDifferences at hg
  split at hg
  · cases hg
  · rw [List.mapM_toFloat_float, Failure.lift_ok, ok_bind] at hg
    rcases bind_eq_error.1 hg with hg | ⟨⟨g, w⟩, -, hg⟩
    · exact Difference.gradientFrom_aborted hg
    · cases hg

/-- A finite-difference Hessian on doubles aborts only when the squared step rounds to zero. -/
theorem Bytecode.hessianByDifferences_aborted {p : Bytecode Float} {h : Float} {x : List Float}
    {c : Abort} (hg : p.hessianByDifferences h x = .error (.aborted c)) :
    c = .zeroDivision ∧ (h * h == 0.0) = true := by
  unfold Bytecode.hessianByDifferences at hg
  split at hg
  · cases hg
  · rw [List.mapM_toFloat_float, Failure.lift_ok, ok_bind] at hg
    rcases bind_eq_error.1 hg with hb | ⟨f0, -, hg⟩
    · exact absurd hb (Difference.probe_float_ne_aborted p _ _ c)
    rcases bind_eq_error.1 hg with hd | ⟨⟨diag, w⟩, -, hg⟩
    · exact Difference.diagonalFrom_aborted hd
    rcases bind_eq_error.1 hg with hm | ⟨⟨mixed, w'⟩, -, hg⟩
    · exact absurd hm (Difference.mixedFrom_ne_aborted _ _ _ _ _ _)
    · cases hg

/-! ## All engines -/

/-- On doubles every engine answers with a value or a reported failure, except for a quotient by
an exact zero: the machine never aborts; the forward sweep, for gradients and Hessians alike,
aborts only on a quotient by zero, at an instruction it reaches that divides by zero where
`Instr.ZeroQuotientAt` says (`LOG`, or `POW` with a varying exponent, on a value whose square
underflows); finite differences abort only when the step doubled (for a gradient) or squared (for
a Hessian) rounds to zero. -/
theorem evaluation_aborts_only_on_zero_quotients (p : Bytecode Float) (x : List Float) (h : Float)
    (c : Abort) :
    p.execute x ≠ .error (.aborted c) ∧
    (p.gradient x = .error (.aborted c) → c = .zeroDivision ∧
      ∃ pre i post, p.code = pre ++ i :: post ∧ SweepAbortsAt x.length false x [] pre i) ∧
    (p.hessian x = .error (.aborted c) → c = .zeroDivision ∧
      ∃ pre i post, p.code = pre ++ i :: post ∧ SweepAbortsAt x.length true x [] pre i) ∧
    (p.gradientByDifferences h x = .error (.aborted c) →
      c = .zeroDivision ∧ (2.0 * h == 0.0) = true) ∧
    (p.hessianByDifferences h x = .error (.aborted c) →
      c = .zeroDivision ∧ (h * h == 0.0) = true) :=
  ⟨Bytecode.execute_float_ne_aborted p x c, Bytecode.gradient_aborted, Bytecode.hessian_aborted,
    Bytecode.gradientByDifferences_aborted, Bytecode.hessianByDifferences_aborted⟩

/-- The program of `log(x)`. -/
def logOfInput : Bytecode Float := ⟨[.load 0, .unary .log, .ret], 1⟩

/-- The program of `x`. -/
def identityOfInput : Bytecode Float := ⟨[.load 0, .ret], 1⟩

set_option maxRecDepth 100000 in
/-- Two aborts on doubles: the gradient of `log(x)` at `1e-200`, whose second derivative divides
by `1e-200 · 1e-200`, zero in doubles, and the finite-difference Hessian of `x` with the step
`1e-200`, which is usable as a step and whose square is zero in doubles. -/
theorem aborts_at_tiny_values :
    logOfInput.gradient [1e-200] = .error (.aborted .zeroDivision) ∧
    Settings.step? (.real 1e-200) = .ok (some 1e-200) ∧
    identityOfInput.hessianByDifferences 1e-200 [1.0] = .error (.aborted .zeroDivision) :=
  ⟨rfl, rfl, rfl⟩

end ScalarDiff
