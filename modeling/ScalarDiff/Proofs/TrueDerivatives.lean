import Mathlib
import ScalarDiff.Proofs.RealRules
import ScalarDiff.Proofs.SecondOrder

/-!
# The sweep computes the true derivatives

Read in the reals, a program computes a function of its inputs: at `y`, the value the machine
returns (`Bytecode.realFunction`). The forward sweep computes the true derivatives of that
function. At every point `x` where a sweep of either order returns a jet and the run of the
program meets every operation where its rule is the calculus (`Bytecode.Admissible`), the machine
returns a value at every input near `x`, the jet's value is the function's value, its gradient
is the function's derivative, and the Hessian that a second-order sweep carries is the function's
second derivative (`jet_gives_true_derivatives`).

The conditions on the run are those the rules cannot check themselves: an absolute value away
from zero, a tangent away from its poles, and a power whose base is positive or whose exponent is
computed from constants alone. Whether a value is computed from constants alone is a property of
the code, not of the values: a constant is, an input is not, and the result of an operation is
when its operands are (`Instr.constStep`).

The proof follows the run. Beside the stack of jets at `x` stand the functions of the inputs that
the machine's stack holds near `x`: each jet follows its function, and a slot computed from
constants holds a constant function (`StackFollows`). One instruction keeps that relation
(`StackFollows.step`), and so does a whole run up to its `RETURN` (`StackFollows.sweep`).
-/

noncomputable section

namespace ScalarDiff

open Filter Topology

/-- Which slots of the stack hold values computed from constants alone, after one instruction:
a constant's does, an input's does not, a binary operation's result does when both operands do,
and a unary operation keeps the mark of its operand. -/
def Instr.constStep {α : Type} (marks : List Bool) : Instr α → List Bool
  | .push _ => true :: marks
  | .load _ => false :: marks
  | .binary _ =>
    match marks with
    | b :: a :: rest => (a && b) :: rest
    | _ => []
  | .unary _ => marks
  | .ret => marks

/-- What an instruction asks of the values it meets, beyond what its rule checks, for the rule to
be the calculus: an absolute value away from zero, a tangent away from its poles, and a power
with a positive base or an exponent computed from constants alone. -/
def Instr.Admissible : Instr ℝ → List ℝ → List Bool → Prop
  | .unary op, t :: _, _ => op.Admissible t
  | .binary .pow, _ :: a :: _, b :: _ => 0 < a ∨ b = true
  | _, _, _ => True

/-- A run of the machine from a stack whose slots carry the given marks meets only admissible
instructions before its `RETURN`. -/
def Machine.AdmissibleRun (inputs : List ℝ) : List (Instr ℝ) → List ℝ → List Bool → Prop
  | [], _, _ => True
  | .ret :: _, _, _ => True
  | i :: rest, stack, marks =>
    i.Admissible stack marks ∧
      match Machine.step inputs stack i with
      | .ok stack' => AdmissibleRun inputs rest stack' (i.constStep marks)
      | .error _ => True

/-- The run of a program on inputs meets only admissible instructions. -/
def Bytecode.Admissible (p : Bytecode ℝ) (inputs : List ℝ) : Prop :=
  Machine.AdmissibleRun inputs p.code [] []

/-- The function a program computes on `n` inputs: the value the machine returns, and zero where
the machine fails. -/
def Bytecode.realFunction (p : Bytecode ℝ) (n : ℕ) (y : Fin n → ℝ) : ℝ :=
  match p.execute (List.ofFn y) with
  | .ok v => v
  | .error _ => 0

/-- Where the machine returns a value, the program's function is that value. -/
theorem Bytecode.realFunction_of_execute {p : Bytecode ℝ} {n : ℕ} {y : Fin n → ℝ} {v : ℝ}
    (h : p.execute (List.ofFn y) = .ok v) : p.realFunction n y = v := by
  unfold Bytecode.realFunction
  rw [h]

/-- An instruction other than `RETURN` is admissible, and so is the rest of the run from the
stack it leaves. -/
theorem Machine.admissibleRun_cons {inputs : List ℝ} {i : Instr ℝ} (hi : i ≠ .ret)
    (rest : List (Instr ℝ)) (stack : List ℝ) (marks : List Bool) :
    Machine.AdmissibleRun inputs (i :: rest) stack marks ↔
      i.Admissible stack marks ∧ ∀ stack', Machine.step inputs stack i = .ok stack' →
        Machine.AdmissibleRun inputs rest stack' (i.constStep marks) := by
  have hunfold : Machine.AdmissibleRun inputs (i :: rest) stack marks ↔
      i.Admissible stack marks ∧ match Machine.step inputs stack i with
        | .ok stack' => Machine.AdmissibleRun inputs rest stack' (i.constStep marks)
        | .error _ => True := by
    cases i with
    | ret => exact absurd rfl hi
    | _ => exact Iff.rfl
  rw [hunfold]
  cases Machine.step inputs stack i <;> simp

variable {n : ℕ}

/-- An input position that is among the inputs at one point is at every point, and names the
same coordinate. -/
theorem inputAt_ofFn {x : Fin n → ℝ} {i : Int} {v : ℝ} (h : inputAt? (List.ofFn x) i = some v) :
    ∃ k : Fin n, (k : ℕ) = i.toNat ∧ v = x k ∧ ∀ y : Fin n → ℝ, inputAt? (List.ofFn y) i = some (y k) := by
  unfold inputAt? at h
  split at h
  · rename_i h0
    rw [List.getElem?_ofFn] at h
    split at h
    · rename_i hlt
      cases h
      refine ⟨⟨i.toNat, hlt⟩, rfl, rfl, fun y => ?_⟩
      simp [inputAt?, h0, hlt]
    · cases h
  · cases h

/-- The jets of a sweep at `x` beside functions of the inputs: each jet follows its function, and
a slot marked as computed from constants holds a constant function. -/
structure StackFollows (second : Bool) (x : Fin n → ℝ) (jets : List RealJet) (marks : List Bool)
    (fns : List ((Fin n → ℝ) → ℝ)) : Prop where
  follows : List.Forall₂ (Follows second x) jets fns
  constant : List.Forall₂ (fun m φ => m = true → ∃ c, φ = fun _ => c) marks fns

namespace StackFollows

variable {second : Bool} {x : Fin n → ℝ}

/-- One instruction other than `RETURN` keeps the relation, and near `x` the machine takes the
same step on the functions' values. -/
theorem step {jets jets' : List RealJet} {marks : List Bool} {fns : List ((Fin n → ℝ) → ℝ)}
    {i : Instr ℝ} (hs : StackFollows second x jets marks fns)
    (hadm : i.Admissible (fns.map (· x)) marks)
    (hstep : Jet.step n second (List.ofFn x) jets i = .ok jets') :
    ∃ fns', StackFollows second x jets' (i.constStep marks) fns' ∧
      ∀ᶠ y in 𝓝 x, Machine.step (List.ofFn y) (fns.map (· y)) i = .ok (fns'.map (· y)) := by
  obtain ⟨hfol, hcon⟩ := hs
  cases i with
  | push c =>
    cases hstep
    exact ⟨(fun _ => c) :: fns, ⟨.cons (Follows.const c) hfol, .cons (fun _ => ⟨c, rfl⟩) hcon⟩,
      .of_forall fun _ => rfl⟩
  | load idx =>
    simp only [Jet.step] at hstep
    split at hstep
    · rename_i v hv
      cases hstep
      obtain ⟨k, hk, rfl, hy⟩ := inputAt_ofFn hv
      refine ⟨(fun y => y k) :: fns, ⟨.cons ?_ hfol, .cons (fun h => by cases h) hcon⟩,
        .of_forall fun y => by simp [Machine.step, hy y]⟩
      rw [← hk]
      exact Follows.input k
    · cases hstep
  | binary op =>
    -- the two operands are on top of the stack, the right one first
    rcases jets with _ | ⟨b, _ | ⟨a, rest⟩⟩
    · cases hstep
    · cases hstep
    rcases hfol with _ | @⟨_, ψ, _, _, hb, hfol⟩
    rcases hfol with _ | @⟨_, φ, _, fr, ha, hrest⟩
    rcases hcon with _ | @⟨_, _, _, _, hcb, hcon⟩
    rcases hcon with _ | @⟨_, _, _, _, hca, hcrest⟩
    obtain ⟨J, hJ, rfl⟩ := map_eq_ok.1 hstep
    have hpow : op = .pow → 0 < φ x ∨ ∀ y, ψ y = ψ x := by
      rintro rfl
      refine hadm.imp id fun hmark y => ?_
      obtain ⟨c, rfl⟩ := hcb hmark
      rfl
    obtain ⟨hJf, hnear⟩ := Follows.binary ha hb hpow hJ
    refine ⟨(fun y => op.real (φ y) (ψ y)) :: fr, ⟨.cons hJf hrest, .cons ?_ hcrest⟩,
      hnear.mono fun y hy => by simp [Machine.step, hy]⟩
    -- a result of constant operands is constant
    intro hmark
    obtain ⟨ha', hb'⟩ := Bool.and_eq_true_iff.1 hmark
    obtain ⟨ca, rfl⟩ := hca ha'
    obtain ⟨cb, rfl⟩ := hcb hb'
    exact ⟨op.real ca cb, rfl⟩
  | unary op =>
    rcases jets with _ | ⟨a, rest⟩
    · cases hstep
    rcases hfol with _ | @⟨_, φ, _, fr, ha, hrest⟩
    obtain ⟨J, hJ, rfl⟩ := map_eq_ok.1 hstep
    obtain ⟨hJf, hnear⟩ := Follows.unary ha hadm hJ
    rcases hcon with _ | ⟨hca, hcrest⟩
    refine ⟨(fun y => op.real (φ y)) :: fr, ⟨.cons hJf hrest, .cons ?_ hcrest⟩,
      hnear.mono fun y hy => by simp [Machine.step, hy]⟩
    intro hmark
    obtain ⟨c, rfl⟩ := hca hmark
    exact ⟨op.real c, rfl⟩
  | ret =>
    cases hstep
    exact ⟨fns, ⟨hfol, hcon⟩, .of_forall fun _ => rfl⟩

/-- A sweep that returns a jet follows a function which, near `x`, the machine returns from the
functions' values. -/
theorem sweep {J : RealJet} (code : List (Instr ℝ)) :
    ∀ {jets : List RealJet} {marks : List Bool} {fns : List ((Fin n → ℝ) → ℝ)},
      StackFollows second x jets marks fns →
      Machine.AdmissibleRun (List.ofFn x) code (fns.map (· x)) marks →
      Jet.sweep n second (List.ofFn x) code jets = .ok J →
      ∃ φ, Follows second x J φ ∧
        ∀ᶠ y in 𝓝 x, Machine.run (List.ofFn y) code (fns.map (· y)) = .ok (φ y) := by
  induction code with
  | nil => intro _ _ _ _ _ h; cases h
  | cons i rest ih =>
    intro jets marks fns hs hadm hsweep
    by_cases hret : i = .ret
    · -- `RETURN` with one jet on the stack returns it
      subst hret
      rcases jets with _ | ⟨j, _ | ⟨j', jets⟩⟩
      · cases hsweep
      · cases hsweep
        obtain ⟨hfol, -⟩ := hs
        rcases hfol with _ | @⟨_, φ, _, _, hj, _ | _⟩
        exact ⟨φ, hj, .of_forall fun _ => rfl⟩
      · cases hsweep
    · rw [Jet.sweep_cons_of_ne_ret _ _ _ hret] at hsweep
      obtain ⟨jets', hstep, hrest⟩ := bind_eq_ok.1 hsweep
      rw [Machine.admissibleRun_cons hret] at hadm
      obtain ⟨fns', hs', hnear⟩ := hs.step hadm.1 hstep
      obtain ⟨φ, hφ, hrun⟩ := ih hs' (hadm.2 _ hnear.self_of_nhds) hrest
      refine ⟨φ, hφ, (hnear.and hrun).mono fun y hy => ?_⟩
      rw [Machine.run_cons_of_ne_ret _ hret, hy.1, ok_bind, hy.2]

end StackFollows

/-- The forward sweep computes the true derivatives of the function a program computes: where a
sweep returns a jet and the run is admissible, the machine returns a value near `x`, the jet's
value is the function's, its gradient the derivative, and the Hessian, which a second-order sweep
carries, the second derivative. -/
theorem jet_gives_true_derivatives (p : Bytecode ℝ) (x : Fin n → ℝ) (second : Bool)
    {J : RealJet} (hJ : p.jet (List.ofFn x) second = .ok J)
    (hadm : p.Admissible (List.ofFn x)) :
    (∀ᶠ y in 𝓝 x, p.execute (List.ofFn y) = .ok (p.realFunction n y)) ∧
      J.value = p.realFunction n x ∧
      HasFDerivAt (p.realFunction n) (gradForm n J.grad) x ∧
      J.hess.isSome = second ∧
      ∀ H, J.hess = some H → HasFDerivAt (fderiv ℝ (p.realFunction n)) (hessForm n H) x := by
  unfold Bytecode.jet at hJ
  split at hJ
  · cases hJ
  rename_i harity
  rw [List.length_ofFn] at hJ
  obtain ⟨φ, hφ, hrun⟩ := StackFollows.sweep p.code ⟨.nil, .nil⟩ hadm hJ
  -- near `x` the program runs on inputs of its arity and returns `φ`
  have hexec : ∀ᶠ y in 𝓝 x, p.execute (List.ofFn y) = .ok (φ y) := hrun.mono fun y hy => by
    rw [Bytecode.execute, if_neg (by simpa using harity)]
    exact hy
  have hreal : ∀ᶠ y in 𝓝 x, p.execute (List.ofFn y) = .ok (p.realFunction n y) :=
    hexec.mono fun y hy => by rw [hy, Bytecode.realFunction_of_execute hy]
  have hf := hφ.congr (hexec.mono fun y hy => (Bytecode.realFunction_of_execute hy).symm)
  exact ⟨hreal, hf.value, hf.grad, hf.carries, fun H hH => hf.hasFDerivAt_fderiv hH⟩

/-- The square at a negative input: the exponent is computed from a constant, so the power rule
gives the true first and second derivatives although the base is negative. -/
theorem square_jet_true_derivatives :
    ∃ J : RealJet, squareOfInput.real.jet (List.ofFn ![(-3 : ℝ)]) true = .ok J ∧
      squareOfInput.real.Admissible (List.ofFn ![(-3 : ℝ)]) ∧
      J.value = squareOfInput.real.realFunction 1 ![-3] ∧
      HasFDerivAt (squareOfInput.real.realFunction 1) (gradForm 1 J.grad) ![-3] ∧
      ∀ H, J.hess = some H →
        HasFDerivAt (fderiv ℝ (squareOfInput.real.realFunction 1)) (hessForm 1 H) ![-3] := by
  obtain ⟨J, hJ⟩ : ∃ J : RealJet, squareOfInput.real.jet (List.ofFn ![(-3 : ℝ)]) true = .ok J := by
    simp [squareOfInput, Bytecode.real, Instr.real, Bytecode.jet, Jet.sweep, Jet.step, inputAt?,
      Jet.binary, Jet.pow, Jet.isConstant, Tangent.gradNonzero, Tangent.hessNonzero,
      Jet.constantPowerSlopes, Jet.chain_real, Tangent.gradFinite]
  have hadm : squareOfInput.real.Admissible (List.ofFn ![(-3 : ℝ)]) := by
    simp [squareOfInput, Bytecode.real, Instr.real, Bytecode.Admissible, Machine.AdmissibleRun,
      Machine.step, inputAt?, Instr.Admissible, Instr.constStep, BinOp.apply]
  obtain ⟨-, hvalue, hgrad, -, hhess⟩ := jet_gives_true_derivatives _ _ _ hJ hadm
  exact ⟨J, hJ, hadm, hvalue, hgrad, hhess⟩

end ScalarDiff

end
