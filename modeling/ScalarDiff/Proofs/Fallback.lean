import ScalarDiff.Bytecode.Compile
import ScalarDiff.Proofs.JetRules
import ScalarDiff.Session.Program

/-!
# Automatic mode falls back on reported failures only

In automatic mode a program runs the forward sweep first and, when the sweep reports a failure,
finite differences instead. A program keeps nothing from one call to the next: every run starts
from an empty stack and from the point as given, so what a call returns depends on the program
and the point alone.

`auto_falls_back_on_reported` says exactly what automatic mode returns, for gradients and
Hessians alike: the forward result when the sweep succeeds, the finite-difference result when
the sweep reports a failure, and the forward abort when the sweep aborts. On doubles the sweep
aborts only on a quotient by an exact zero inside a derivative formula, the logarithm's second
derivative `-1/(y·y)` once `y·y` underflows, whether the logarithm is taken by `LOG` or inside a
power with a varying exponent (`Instr.ZeroQuotientAt`). Automatic mode does not catch that abort, so it can abort where
finite differences succeed (`auto_aborts_where_differences_succeed`).
-/

namespace ScalarDiff

/-- Automatic dispatch aborts only with the abort of one of the two methods. -/
theorem Program.dispatch_auto_aborted {α : Type} {forward byDifferences : Except Failure α}
    {c : Abort} (h : Program.dispatch .auto forward byDifferences = .error (.aborted c)) :
    forward = .error (.aborted c) ∨ byDifferences = .error (.aborted c) := by
  unfold Program.dispatch at h
  cases forward with
  | ok v => cases h
  | error f =>
    cases f with
    | reported e => exact .inr h
    | aborted a => exact .inl h

/-- On doubles the gradient converts and the Hessian checks without aborting, so both abort only
where the sweep does: on a quotient by zero, at an instruction where `Instr.ZeroQuotientAt`
says. -/
theorem Bytecode.gradient_aborted {p : Bytecode Float} {x : List Float} {c : Abort}
    (h : (p.gradient x : Except Failure (List Float)) = .error (.aborted c)) :
    c = .zeroDivision ∧
      ∃ pre i post, p.code = pre ++ i :: post ∧ SweepAbortsAt x.length false x [] pre i := by
  unfold Bytecode.gradient at h
  cases hj : (p.jet x false : Except Failure DenseJet) with
  | error f =>
    rw [hj, error_bind] at h
    cases h
    exact Bytecode.jet_aborted hj
  | ok j =>
    rw [hj] at h
    cases h

theorem Bytecode.hessian_aborted {p : Bytecode Float} {x : List Float} {c : Abort}
    (h : (p.hessian x : Except Failure (List (List Float))) = .error (.aborted c)) :
    c = .zeroDivision ∧
      ∃ pre i post, p.code = pre ++ i :: post ∧ SweepAbortsAt x.length true x [] pre i := by
  unfold Bytecode.hessian at h
  cases hj : (p.jet x true : Except Failure DenseJet) with
  | error f =>
    rw [hj, error_bind] at h
    cases h
    exact Bytecode.jet_aborted hj
  | ok j =>
    rw [hj] at h
    simp only [ok_bind, Tangent.hessReal_float, Tangent.hessFinite_float, Failure.lift_ok] at h
    split at h <;> simp [Failure.report] at h

namespace Program

variable (p : Program) (point : Datum)

theorem gradient_auto :
    { p with mode := .auto }.gradient point =
      match { p with mode := .forward }.gradient point with
      | .error (.reported _) => { p with mode := .finiteDiff }.gradient point
      | r => r := by
  unfold gradient
  cases pointOf point with
  | error f => cases f <;> rfl
  | ok x =>
    simp only [ok_bind, dispatch]
    cases p.code.gradient x with
    | error f => cases f <;> rfl
    | ok g => rfl

theorem hessian_auto :
    { p with mode := .auto }.hessian point =
      match { p with mode := .forward }.hessian point with
      | .error (.reported _) => { p with mode := .finiteDiff }.hessian point
      | r => r := by
  unfold hessian
  cases pointOf point with
  | error f => cases f <;> rfl
  | ok x =>
    simp only [ok_bind, dispatch]
    cases p.code.hessian x with
    | error f => cases f <;> rfl
    | ok h => rfl

/-- An automatic gradient aborts where finite differences abort alike, or on a quotient by zero in
the forward sweep. -/
theorem gradient_auto_aborted {c : Abort}
    (h : { p with mode := .auto }.gradient point = .error (.aborted c)) :
    c = .zeroDivision ∨ { p with mode := .finiteDiff }.gradient point = .error (.aborted c) := by
  unfold gradient at h ⊢
  cases hx : pointOf point with
  | error f =>
    rw [hx, error_bind] at h
    rw [error_bind, h]
    exact .inr rfl
  | ok x =>
    rw [hx, ok_bind] at h
    rw [ok_bind]
    rcases dispatch_auto_aborted h with hf | hd
    · exact .inl (Bytecode.gradient_aborted hf).1
    · exact .inr hd

theorem hessian_auto_aborted {c : Abort}
    (h : { p with mode := .auto }.hessian point = .error (.aborted c)) :
    c = .zeroDivision ∨ { p with mode := .finiteDiff }.hessian point = .error (.aborted c) := by
  unfold hessian at h ⊢
  cases hx : pointOf point with
  | error f =>
    rw [hx, error_bind] at h
    rw [error_bind, h]
    exact .inr rfl
  | ok x =>
    rw [hx, ok_bind, bind_pure_comp, map_eq_error] at h
    rw [ok_bind, bind_pure_comp, map_eq_error]
    rcases dispatch_auto_aborted h with hf | hd
    · exact .inl (Bytecode.hessian_aborted hf).1
    · exact .inr hd

/-- Automatic mode answers a reported failure of the forward sweep with finite differences and
nothing else: it returns what the sweep returns otherwise, and it aborts only where finite
differences abort alike or on a quotient by zero inside the sweep. -/
theorem auto_falls_back_on_reported :
    ({ p with mode := .auto }.gradient point =
      match { p with mode := .forward }.gradient point with
      | .error (.reported _) => { p with mode := .finiteDiff }.gradient point
      | r => r) ∧
    ({ p with mode := .auto }.hessian point =
      match { p with mode := .forward }.hessian point with
      | .error (.reported _) => { p with mode := .finiteDiff }.hessian point
      | r => r) ∧
    (∀ c, { p with mode := .auto }.gradient point = .error (.aborted c) →
      c = .zeroDivision ∨ { p with mode := .finiteDiff }.gradient point = .error (.aborted c)) ∧
    (∀ c, { p with mode := .auto }.hessian point = .error (.aborted c) →
      c = .zeroDivision ∨ { p with mode := .finiteDiff }.hessian point = .error (.aborted c)) :=
  ⟨gradient_auto p point, hessian_auto p point, fun _ => gradient_auto_aborted p point,
    fun _ => hessian_auto_aborted p point⟩

end Program

/-- The program of `1e-200 ^ x` in automatic mode. At `x = 1` the power's base is a constant
but its exponent varies, so the sweep takes the logarithm of the base; the logarithm's second
derivative divides by the base squared, which is zero in doubles, and the sweep aborts even for
a gradient. Finite differences only evaluate the power and succeed. -/
def tinyPower : Program :=
  { code := ⟨[.push 1e-200, .load 0, .binary .pow, .ret], 1⟩, expression := "1e-200 ^ x",
    names := ["x"], mode := .auto, epsilon := 1e-5 }

set_option maxRecDepth 100000 in
theorem auto_aborts_where_differences_succeed :
    (Expr.binary "^" (.num 1e-200) (.var 0 "x")).compile 1 (.whole 100) = .ok tinyPower.code ∧
    tinyPower.gradient (.list [.real 1.0]) = .error (.aborted .zeroDivision) ∧
    ∃ g, { tinyPower with mode := .finiteDiff }.gradient (.list [.real 1.0]) = .ok g := by
  refine ⟨?_, rfl, _, rfl⟩
  simp [Expr.compile, Compiler.node, chainOp?, NestingLimit.reached, tinyPower]

end ScalarDiff
