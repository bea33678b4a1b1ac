import Mathlib
import ScalarDiff.Proofs.JetCalculus

/-!
# Every jet rule follows its operation

Read in the reals, each operation of the machine is a function of its operands (`UnOp.real`,
`BinOp.real`), which the machine computes wherever its checks pass. If the jets of the operands
follow functions of the inputs at a point `x`, the jet a rule builds from them follows the
operation applied to those functions (`Follows.unary`, `Follows.binary`), and near `x` the machine
computes the operation without failing.

The unary operations other than negation run the chain rule with the first and second derivative
of their function in the closed forms the rules compute (`UnOp.slope`, `UnOp.curvature`). These are
the true derivatives wherever the function is smooth (`UnOp.Smooth`): the logarithm and the square
root at a positive operand, which their rules check, the tangent where the cosine is not zero and
the absolute value away from zero, which the rules do not check (`UnOp.Admissible`). A quotient is
the product with the reciprocal, by the chain rule for `t ↦ 1 / t`.

A power `a ^ b` has two rules. With a varying exponent it is `exp (b · log a)` by the chain and
product rules, computed at a positive base only. With a constant exponent `c`, one whose jet has
zero derivatives, it is the power rule `c · a^(c-1)`, `c · (c-1) · a^(c-2)`. At a positive base the
power rule agrees with the varying rule, because the exponent's derivatives vanish at the point
even where the exponent varies around it (`Jet.powerRule_eq_varyingRule`). At any other base it is
the true derivative when the exponent is the same at every input; there the rule's refusal of a
negative power of zero leaves, at a zero base, only the exponents `0`, `1` and those from `2` on.
-/

noncomputable section

namespace ScalarDiff

open Filter Topology

/-- A unary operation as a function of reals. -/
def UnOp.real : UnOp → ℝ → ℝ
  | .neg, t => -t
  | .sin, t => Real.sin t
  | .cos, t => Real.cos t
  | .tan, t => Real.tan t
  | .exp, t => Real.exp t
  | .log, t => Real.log t
  | .sqrt, t => Real.sqrt t
  | .abs, t => |t|

/-- A binary operation as a function of reals, left operand first. -/
def BinOp.real : BinOp → ℝ → ℝ → ℝ
  | .add, a, b => a + b
  | .sub, a, b => a - b
  | .mul, a, b => a * b
  | .div, a, b => a / b
  | .pow, a, b => a ^ b

/-- The first derivative of a unary operation, in the form its rule computes it, the rule's
double constants read as reals. -/
def UnOp.slope : UnOp → ℝ → ℝ
  | .neg, _ => -1
  | .sin, t => Real.cos t
  | .cos, t => -Real.sin t
  | .tan, t => 1 + Real.tan t * Real.tan t
  | .exp, t => Real.exp t
  | .log, t => 1 / t
  | .sqrt, t => Float.toReal 0.5 / Real.sqrt t
  | .abs, t => if 0 ≤ t then 1 else -1

/-- The second derivative of a unary operation, in the form its rule computes it, the rule's
double constants read as reals. -/
def UnOp.curvature : UnOp → ℝ → ℝ
  | .neg, _ => 0
  | .sin, t => -Real.sin t
  | .cos, t => -Real.cos t
  | .tan, t => Float.toReal 2.0 * Real.tan t * (1 + Real.tan t * Real.tan t)
  | .exp, t => Real.exp t
  | .log, t => -1 / (t * t)
  | .sqrt, t => Float.toReal (-0.5) * (Float.toReal 0.5 / Real.sqrt t) / t
  | .abs, _ => 0

/-- Where a unary operation is twice differentiable. -/
def UnOp.Smooth : UnOp → ℝ → Prop
  | .tan, t => Real.cos t ≠ 0
  | .log, t => 0 < t
  | .sqrt, t => 0 < t
  | .abs, t => t ≠ 0
  | _, _ => True

/-- The part of smoothness that the rules do not check: the tangent away from its poles and the
absolute value away from its kink. -/
def UnOp.Admissible : UnOp → ℝ → Prop
  | .tan, t => Real.cos t ≠ 0
  | .abs, t => t ≠ 0
  | _, _ => True

/-- The reciprocal `t ↦ 1 / t` away from zero, with the derivatives the division rule computes:
`-(1/t)·(1/t)` near `t` and `2·(1/t)·(1/t)·(1/t)` at `t`. -/
theorem hasDerivAt_reciprocal {t : ℝ} (ht : t ≠ 0) :
    (∀ᶠ s in 𝓝 t, HasDerivAt (fun s => 1 / s) (-(1 / s) * (1 / s)) s) ∧
      HasDerivAt (fun s => -(1 / s) * (1 / s)) (2 * (1 / t) * (1 / t) * (1 / t)) t := by
  simp only [one_div]
  refine ⟨(eventually_ne_nhds ht).mono fun s hs => (hasDerivAt_inv hs).congr_deriv (by ring), ?_⟩
  have hinv := hasDerivAt_inv ht
  exact (hinv.neg.mul hinv).congr_deriv (by simp only [Pi.neg_apply]; ring)

namespace UnOp

variable {op : UnOp} {t : ℝ}

/-- Smoothness is an open condition. -/
theorem Smooth.eventually (h : op.Smooth t) : ∀ᶠ s in 𝓝 t, op.Smooth s := by
  cases op with
  | tan => exact Real.continuous_cos.continuousAt.eventually_ne h
  | log | sqrt => exact lt_mem_nhds h
  | abs => exact eventually_ne_nhds h
  | neg | sin | cos | exp => exact Eventually.of_forall fun _ => trivial

/-- Where it is smooth, the machine computes the operation. -/
theorem apply_real (h : op.Smooth t) : op.apply t = .ok (op.real t) := by
  cases op with
  | log => simp [UnOp.apply, UnOp.real, not_le.2 (show (0 : ℝ) < t from h)]
  | sqrt => simp [UnOp.apply, UnOp.real, not_lt.2 (show (0 : ℝ) < t from h).le]
  | _ => rfl

/-- The tangent's derivative `1 / cos² t` is `1 + tan² t`. -/
theorem one_add_tan_mul_tan (h : Real.cos t ≠ 0) :
    1 + Real.tan t * Real.tan t = 1 / Real.cos t ^ 2 := by
  rw [Real.tan_eq_sin_div_cos]
  field_simp
  linarith [Real.sin_sq_add_cos_sq t]

/-- The slope and curvature are the first and second derivatives of a smooth operation: the
slope is the derivative near `t`, and the curvature the slope's derivative at `t`. -/
theorem hasDerivAt_real (h : op.Smooth t) :
    (∀ᶠ s in 𝓝 t, HasDerivAt op.real (op.slope s) s) ∧ HasDerivAt op.slope (op.curvature t) t := by
  cases op with
  | neg => exact ⟨.of_forall fun s => hasDerivAt_neg s, hasDerivAt_const t (-1 : ℝ)⟩
  | sin => exact ⟨.of_forall Real.hasDerivAt_sin, Real.hasDerivAt_cos t⟩
  | cos => exact ⟨.of_forall Real.hasDerivAt_cos, (Real.hasDerivAt_sin t).neg⟩
  | exp => exact ⟨.of_forall Real.hasDerivAt_exp, Real.hasDerivAt_exp t⟩
  | tan =>
    have hcos : Real.cos t ≠ 0 := h
    refine ⟨h.eventually.mono fun s hs =>
      (Real.hasDerivAt_tan hs).congr_deriv (one_add_tan_mul_tan hs).symm, ?_⟩
    have htan := Real.hasDerivAt_tan hcos
    rw [← one_add_tan_mul_tan hcos] at htan
    refine ((htan.mul htan).const_add 1).congr_deriv ?_
    show _ = Float.toReal 2.0 * Real.tan t * (1 + Real.tan t * Real.tan t)
    rw [Float.toReal_two]
    ring
  | log =>
    have hpos : 0 < t := h
    refine ⟨(lt_mem_nhds hpos).mono fun s hs =>
      (Real.hasDerivAt_log hs.ne').congr_deriv (one_div s).symm, ?_⟩
    refine (hasDerivAt_reciprocal hpos.ne').1.self_of_nhds.congr_deriv ?_
    show _ = -1 / (t * t)
    field_simp
  | sqrt =>
    have hpos : 0 < t := h
    have hroot : Real.sqrt t ≠ 0 := (Real.sqrt_pos.2 hpos).ne'
    refine ⟨(lt_mem_nhds hpos).mono fun s hs =>
      (Real.hasDerivAt_sqrt hs.ne').congr_deriv ?_, ?_⟩
    · show _ = Float.toReal 0.5 / Real.sqrt s
      rw [Float.toReal_half, div_div]
    refine ((hasDerivAt_const t (Float.toReal 0.5)).div (Real.hasDerivAt_sqrt hpos.ne')
      hroot).congr_deriv ?_
    show _ = Float.toReal (-0.5) * (Float.toReal 0.5 / Real.sqrt t) / t
    rw [Float.toReal_neg_half, Float.toReal_half, Real.sq_sqrt hpos.le]
    field_simp
    ring
  | abs =>
    have hne : t ≠ 0 := h
    -- near `t` the sign is that of `t`, so the slope is locally constant
    have hsign : ∀ᶠ s in 𝓝 t, s ≠ 0 ∧ UnOp.slope .abs s = UnOp.slope .abs t := by
      rcases hne.lt_or_gt with hneg | hpos
      · exact (gt_mem_nhds hneg).mono fun s hs => ⟨hs.ne, by simp [UnOp.slope, not_le.2 hs,
          not_le.2 hneg]⟩
      · exact (lt_mem_nhds hpos).mono fun s hs => ⟨hs.ne', by simp [UnOp.slope, hs.le, hpos.le]⟩
    refine ⟨hsign.mono fun s hs => ?_, ?_⟩
    · rcases hs.1.lt_or_gt with hneg | hpos
      · exact (hasDerivAt_abs_neg hneg).congr_deriv (by simp [UnOp.slope, not_le.2 hneg])
      · exact (hasDerivAt_abs_pos hpos).congr_deriv (by simp [UnOp.slope, hpos.le])
    · exact (hasDerivAt_const t (UnOp.slope .abs t)).congr_of_eventuallyEq
        (hsign.mono fun s hs => hs.2)

end UnOp

/-- The power `s ↦ s ^ c` with the derivatives the power rule computes, where they are the true
ones: away from zero, or at zero for the exponents the rule lets through there. -/
theorem hasDerivAt_rpow_rule {t c : ℝ} (h : t ≠ 0 ∨ c = 0 ∨ c = 1 ∨ 2 ≤ c) :
    (∀ᶠ s in 𝓝 t, HasDerivAt (fun s => s ^ c) (c * s ^ (c - 1)) s) ∧
      HasDerivAt (fun s => c * s ^ (c - 1)) (c * (c - 1) * t ^ (c - 2)) t := by
  have hsub : c - 1 - 1 = c - 2 := by ring
  rcases h with ht | rfl | rfl | hc
  · refine ⟨(eventually_ne_nhds ht).mono fun s hs => Real.hasDerivAt_rpow_const (.inl hs), ?_⟩
    have hd := (Real.hasDerivAt_rpow_const (.inl ht) :
      HasDerivAt (fun s => s ^ (c - 1)) _ t).const_mul c
    rwa [hsub, ← mul_assoc] at hd
  · simp only [Real.rpow_zero, zero_mul]
    exact ⟨.of_forall fun s => hasDerivAt_const s (1 : ℝ), hasDerivAt_const t (0 : ℝ)⟩
  · simp only [Real.rpow_one, sub_self, Real.rpow_zero, one_mul, mul_zero, zero_mul]
    exact ⟨.of_forall fun s => hasDerivAt_id s, hasDerivAt_const t (1 : ℝ)⟩
  · refine ⟨.of_forall fun s => Real.hasDerivAt_rpow_const (.inr (by linarith)), ?_⟩
    have hd := (Real.hasDerivAt_rpow_const (.inr (by linarith)) :
      HasDerivAt (fun s => s ^ (c - 1)) _ t).const_mul c
    rwa [hsub, ← mul_assoc] at hd

namespace Jet

variable {a b J : RealJet}

/-- A unary rule other than negation is the chain rule with the operation's slope and
curvature; the logarithm and the square root have checked that the operand is positive. -/
theorem unary_real {op : UnOp} (hop : op ≠ .neg) (h : Jet.unary op a = .ok J) :
    (op = .log ∨ op = .sqrt → 0 < a.value) ∧
      Jet.chain a (op.real a.value) (op.slope a.value) (op.curvature a.value) = .ok J := by
  cases op with
  | neg => exact absurd rfl hop
  | sin | cos | exp =>
    simp only [Jet.unary, Scalar.sin_real, Scalar.cos_real, Scalar.exp_real, Scalar.neg_real,
      ok_bind, Failure.lift_eq_ok] at h
    exact ⟨by simp, h⟩
  | tan =>
    simp only [Jet.unary, Scalar.tan_real, tangentSlopes_real, ok_bind, Failure.lift_eq_ok] at h
    refine ⟨by simp, ?_⟩
    simp only [UnOp.real, UnOp.slope, UnOp.curvature, Float.toReal_two]
    exact h
  | abs =>
    simp only [Jet.unary, Scalar.abs_real, Scalar.atLeastZero_real, Scalar.ofFloat_real, ok_bind,
      Failure.lift_eq_ok, apply_ite Float.toReal, Float.toReal_one, Float.toReal_neg_one,
      Float.toReal_zero, decide_eq_true_eq] at h
    exact ⟨by simp, h⟩
  | log =>
    simp only [Jet.unary, Scalar.atMostZero_real, Failure.lift_ok, ok_bind] at h
    split at h
    · cases h
    · rename_i hx
      have hpos : 0 < a.value := by simpa using hx
      rw [logSlopes_real hpos.ne', Failure.lift_eq_ok] at h
      exact ⟨fun _ => hpos, h⟩
  | sqrt =>
    simp only [Jet.unary, Scalar.belowZero_real, Scalar.isZero_real, Failure.lift_ok,
      ok_bind] at h
    split at h
    · cases h
    · split at h
      · cases h
      · rename_i hneg hzero
        have hpos : 0 < a.value :=
          lt_of_le_of_ne (by simpa using hneg) (Ne.symm (by simpa using hzero))
        rw [Scalar.sqrt_real, ok_bind, rootSlopes_real hpos, ok_bind, Failure.lift_eq_ok] at h
        refine ⟨fun _ => hpos, ?_⟩
        simp only [UnOp.real, UnOp.slope, UnOp.curvature, Float.toReal_half, Float.toReal_neg_half]
        exact h

/-- A quotient rule succeeds on a nonzero divisor: the product with the chain rule for the
reciprocal, carrying the plain quotient as its value. -/
theorem div_real (h : Jet.div a b = .ok J) :
    b.value ≠ 0 ∧ ∃ R Q, Jet.chain b (1 / b.value) (-(1 / b.value) * (1 / b.value))
      (2 * (1 / b.value) * (1 / b.value) * (1 / b.value)) = .ok R ∧ Jet.mul a R = .ok Q ∧
        J = { Q with value := a.value / b.value } := by
  unfold Jet.div at h
  simp only [Scalar.isZero_real] at h
  split at h
  · cases h
  · rename_i hb
    have hb : b.value ≠ 0 := by simpa using hb
    simp only [Scalar.ofFloat_real, Float.toReal_one, Scalar.div_real, if_neg hb, ok_bind,
      reciprocalSlopes_real] at h
    obtain ⟨R, hR, h⟩ := bind_eq_ok.1 h
    obtain ⟨Q, hQ, h⟩ := bind_eq_ok.1 h
    cases h
    exact ⟨hb, R, Q, Failure.lift_eq_ok.1 hR, hQ, rfl⟩

/-- A power rule succeeds only where the power has a value, by the power rule on a constant
exponent or by the varying rule on a positive base. -/
theorem pow_real (h : Jet.pow a b = .ok J) :
    ¬(a.value = 0 ∧ b.value < 0) ∧
      ((b.isConstant = true ∧ ∃ d1 d2, Jet.constantPowerSlopes a.value b.value = .ok (d1, d2) ∧
          Jet.chain a (a.value ^ b.value) d1 d2 = .ok J) ∨
        (0 < a.value ∧ ∃ L P,
          Jet.chain a (Real.log a.value) (1 / a.value) (-1 / (a.value * a.value)) = .ok L ∧
          Jet.mul b L = .ok P ∧
          Jet.chain P (a.value ^ b.value) (a.value ^ b.value) (a.value ^ b.value) = .ok J)) := by
  unfold Jet.pow at h
  simp only [Scalar.pow_real] at h
  by_cases hdef : a.value = 0 ∧ b.value < 0
  · rw [if_pos hdef] at h
    cases h
  rw [if_neg hdef, Failure.lift_ok, ok_bind] at h
  refine ⟨hdef, ?_⟩
  split at h
  · rename_i hconst
    obtain ⟨⟨d1, d2⟩, hd, h⟩ := bind_eq_ok.1 h
    simp only [Scalar.isFinite_real, Bool.not_true, Bool.false_or, Bool.and_false] at h
    exact .inl ⟨hconst, d1, d2, Failure.lift_eq_ok.1 hd, Failure.lift_eq_ok.1 h⟩
  · simp only [Scalar.atMostZero_real, Failure.lift_ok, ok_bind] at h
    split at h
    · cases h
    · rename_i hx
      have hpos : 0 < a.value := by simpa using hx
      rw [logSlopes_real hpos.ne', Failure.lift_ok, ok_bind] at h
      obtain ⟨L, hL, h⟩ := bind_eq_ok.1 h
      obtain ⟨P, hP, h⟩ := bind_eq_ok.1 h
      exact .inr ⟨hpos, L, P, Failure.lift_eq_ok.1 hL, hP, Failure.lift_eq_ok.1 h⟩

/-- On a positive base and an exponent with zero derivatives, the power rule builds the jet the
varying rule builds: `c · a^(c-1) = a^c · c / a`, and the Hessian's terms through the exponent's
derivatives vanish. -/
theorem powerRule_eq_varyingRule {L P : RealJet} (hpos : 0 < a.value) (hgrad : b.grad = 0)
    (hhess : ∀ H, b.hess = some H → H = 0) (hcarry : a.hess.isSome = b.hess.isSome)
    (hL : Jet.chain a (Real.log a.value) (1 / a.value) (-1 / (a.value * a.value)) = .ok L)
    (hP : Jet.mul b L = .ok P) :
    Jet.chain a (a.value ^ b.value) (b.value * a.value ^ (b.value - 1))
        (b.value * (b.value - 1) * a.value ^ (b.value - 2)) =
      Jet.chain P (a.value ^ b.value) (a.value ^ b.value) (a.value ^ b.value) := by
  rw [chain_real] at hL
  cases hL
  rw [mul_real] at hP
  cases hP
  rw [chain_real, chain_real]
  obtain ⟨t, g, Ha⟩ := a
  obtain ⟨c, k, Hb⟩ := b
  dsimp only at hpos hgrad hhess hcarry ⊢
  subst hgrad
  have ht : t ≠ 0 := hpos.ne'
  have hpow1 : t ^ (c - 1) = t ^ c / t := Real.rpow_sub_one ht c
  have hpow2 : t ^ (c - 2) = t ^ c / t ^ 2 := by
    rw [Real.rpow_sub hpos, Real.rpow_two]
  congr 2
  · funext i
    simp only [Pi.smul_apply, Pi.add_apply, Pi.zero_apply, smul_eq_mul, mul_zero, zero_add, hpow1]
    field_simp
  · -- both operands carry a Hessian or neither does; the exponent's is zero
    cases Ha with
    | none => cases Hb <;> simp_all
    | some Ha =>
      cases Hb with
      | none => simp at hcarry
      | some Hb =>
        obtain rfl := hhess Hb rfl
        simp only [Option.map_some, Option.bind_some, Option.some.injEq]
        funext i j
        simp only [Pi.smul_apply, Pi.add_apply, Pi.zero_apply, smul_eq_mul, gradOuter_apply,
          hpow1, hpow2]
        field_simp
        ring

end Jet

namespace Follows

variable {n : ℕ} {second : Bool} {x : Fin n → ℝ} {a b J : RealJet} {φ ψ : (Fin n → ℝ) → ℝ}

/-- A unary rule follows its operation, and near `x` the machine computes the operation. -/
theorem unary {op : UnOp} (ha : Follows second x a φ) (hadm : op.Admissible (φ x))
    (h : Jet.unary op a = .ok J) :
    Follows second x J (fun y => op.real (φ y)) ∧
      ∀ᶠ y in 𝓝 x, op.apply (φ y) = .ok (op.real (φ y)) := by
  by_cases hop : op = .neg
  · subst hop
    change Jet.neg a = .ok J at h
    rw [Jet.neg_real] at h
    cases h
    exact ⟨ha.neg, .of_forall fun _ => rfl⟩
  obtain ⟨hdom, hJ⟩ := Jet.unary_real hop h
  rw [ha.value] at hdom hJ
  -- the checked positivity and the admissibility make the operation smooth at the value
  have hsmooth : op.Smooth (φ x) := by
    cases op with
    | log | sqrt => exact hdom (by simp)
    | tan | abs => exact hadm
    | neg | sin | cos | exp => trivial
  obtain ⟨hg, hg'⟩ := UnOp.hasDerivAt_real hsmooth
  exact ⟨ha.of_chain hg hg' hJ, (ha.eventually hsmooth.eventually).mono fun y hy =>
    UnOp.apply_real hy⟩

/-- The quotient rule follows the quotient, whose divisor stays nonzero near `x`. -/
theorem div (ha : Follows second x a φ) (hb : Follows second x b ψ) (h : Jet.div a b = .ok J) :
    Follows second x J (fun y => φ y / ψ y) ∧ ∀ᶠ y in 𝓝 x, ψ y ≠ 0 := by
  obtain ⟨hb0, R, Q, hR, hQ, rfl⟩ := Jet.div_real h
  rw [hb.value] at hb0 hR
  obtain ⟨hg, hg'⟩ := hasDerivAt_reciprocal hb0
  have hQf := ha.of_mul (hb.of_chain hg hg' hR) hQ
  have hquot : (fun y => φ y * (1 / ψ y)) = fun y => φ y / ψ y := funext fun y => mul_one_div _ _
  rw [hquot] at hQf
  exact ⟨hQf.with_value (by rw [ha.value, hb.value]), hb.eventually (eventually_ne_nhds hb0)⟩

/-- The varying rule on a positive base follows the power: it is the chain rule for `exp` after
the product of the exponent with the logarithm of the base. -/
theorem pow_varying {L P : RealJet} (ha : Follows second x a φ) (hb : Follows second x b ψ)
    (hpos : 0 < a.value)
    (hL : Jet.chain a (Real.log a.value) (1 / a.value) (-1 / (a.value * a.value)) = .ok L)
    (hP : Jet.mul b L = .ok P)
    (hJ : Jet.chain P (a.value ^ b.value) (a.value ^ b.value) (a.value ^ b.value) = .ok J) :
    Follows second x J (fun y => φ y ^ ψ y) := by
  rw [ha.value] at hpos hL
  have hlog : UnOp.Smooth .log (φ x) := hpos
  obtain ⟨hg, hg'⟩ := UnOp.hasDerivAt_real hlog
  have hPf := hb.of_mul (ha.of_chain hg hg' hL) hP
  have hexp : UnOp.Smooth .exp (ψ x * Real.log (φ x)) := trivial
  obtain ⟨he, he'⟩ := UnOp.hasDerivAt_real hexp
  rw [ha.value, hb.value, Real.rpow_def_of_pos hpos, mul_comm] at hJ
  -- near `x` the base stays positive, where the power is `exp (b · log a)`
  refine (hPf.of_chain he he' hJ).congr ((ha.eventually (lt_mem_nhds hpos)).mono fun y hy => ?_)
  simp only [UnOp.real]
  rw [Real.rpow_def_of_pos hy, mul_comm]

/-- Near `x` a power keeps a value where it has one at `x` and the base is positive or the
exponent the same at every input. -/
theorem pow_defined_near (ha : Follows second x a φ) (hdef : ¬(φ x = 0 ∧ ψ x < 0))
    (hside : 0 < φ x ∨ ∀ y, ψ y = ψ x) : ∀ᶠ y in 𝓝 x, ¬(φ y = 0 ∧ ψ y < 0) := by
  rcases hside with hpos | hfixed
  · exact (ha.eventually (lt_mem_nhds hpos)).mono fun y hy hy0 => hy.ne' hy0.1
  · by_cases hneg : ψ x < 0
    · -- a negative exponent had a nonzero base at `x`, and keeps one near it
      have hne : φ x ≠ 0 := fun h0 => hdef ⟨h0, hneg⟩
      exact (ha.eventually (eventually_ne_nhds hne)).mono fun y hy hy0 => hy hy0.1
    · exact .of_forall fun y hy0 => hneg (hfixed y ▸ hy0.2)

/-- The power rule on a positive base and an exponent with zero derivatives follows the power:
it builds the varying rule's jet. -/
theorem pow_powerRule_pos (ha : Follows second x a φ) (hb : Follows second x b ψ)
    (hconst : b.isConstant = true) (hpos : 0 < a.value)
    (hJ : Jet.chain a (a.value ^ b.value) (b.value * a.value ^ (b.value - 1))
      (b.value * (b.value - 1) * a.value ^ (b.value - 2)) = .ok J) :
    Follows second x J (fun y => φ y ^ ψ y) := by
  obtain ⟨hgrad, hhess⟩ := (Jet.isConstant_real b).1 hconst
  obtain ⟨L, hL⟩ : ∃ L, Jet.chain a (Real.log a.value) (1 / a.value)
      (-1 / (a.value * a.value)) = .ok L := ⟨_, Jet.chain_real _ _ _ _⟩
  obtain ⟨P, hP⟩ : ∃ P, Jet.mul b L = .ok P := ⟨_, Jet.mul_real _ _⟩
  rw [Jet.powerRule_eq_varyingRule hpos hgrad hhess (ha.carries.trans hb.carries.symm) hL hP]
    at hJ
  exact ha.pow_varying hb hpos hL hP hJ

/-- The power rule on an exponent that is the same at every input follows the power: it is the
chain rule for `s ↦ s ^ c`, whose derivatives the rule computes wherever it lets the base
through. -/
theorem pow_powerRule_fixed (ha : Follows second x a φ) (hb : Follows second x b ψ)
    (hfixed : ∀ y, ψ y = ψ x) (hzero : a.value = 0 → b.value = 0 ∨ b.value = 1 ∨ 2 ≤ b.value)
    (hJ : Jet.chain a (a.value ^ b.value) (b.value * a.value ^ (b.value - 1))
      (b.value * (b.value - 1) * a.value ^ (b.value - 2)) = .ok J) :
    Follows second x J (fun y => φ y ^ ψ y) := by
  rw [ha.value, hb.value] at hJ hzero
  have hdom : φ x ≠ 0 ∨ ψ x = 0 ∨ ψ x = 1 ∨ 2 ≤ ψ x := by
    by_cases h0 : φ x = 0
    · exact .inr (hzero h0)
    · exact .inl h0
  obtain ⟨hg, hg'⟩ := hasDerivAt_rpow_rule hdom
  exact (ha.of_chain hg hg' hJ).congr (.of_forall fun y => by simp only [hfixed y])

/-- The power rules follow the power where the base is positive or the exponent is the same
at every input, and near `x` the power keeps a value. -/
theorem pow (ha : Follows second x a φ) (hb : Follows second x b ψ)
    (hside : 0 < φ x ∨ ∀ y, ψ y = ψ x) (h : Jet.pow a b = .ok J) :
    Follows second x J (fun y => φ y ^ ψ y) ∧ ∀ᶠ y in 𝓝 x, ¬(φ y = 0 ∧ ψ y < 0) := by
  obtain ⟨hdef, hrule⟩ := Jet.pow_real h
  rw [ha.value, hb.value] at hdef
  rcases hrule with ⟨hconst, d1, d2, hslopes, hJ⟩ | ⟨hpos, L, P, hL, hP, hJ⟩
  · obtain ⟨rfl, rfl, hzero⟩ := Jet.constantPowerSlopes_real hslopes
    refine ⟨?_, ha.pow_defined_near hdef hside⟩
    rcases hside with hpos | hfixed
    · exact ha.pow_powerRule_pos hb hconst (ha.value ▸ hpos) hJ
    · exact ha.pow_powerRule_fixed hb hfixed hzero hJ
  · exact ⟨ha.pow_varying hb hpos hL hP hJ, ha.pow_defined_near hdef (.inl (ha.value ▸ hpos))⟩

/-- A binary rule follows its operation, and near `x` the machine computes the operation; a
power needs a positive base or an exponent that is the same at every input. -/
theorem binary {op : BinOp} (ha : Follows second x a φ) (hb : Follows second x b ψ)
    (hpow : op = .pow → 0 < φ x ∨ ∀ y, ψ y = ψ x) (h : Jet.binary op a b = .ok J) :
    Follows second x J (fun y => op.real (φ y) (ψ y)) ∧
      ∀ᶠ y in 𝓝 x, op.apply (φ y) (ψ y) = .ok (op.real (φ y) (ψ y)) := by
  cases op with
  | add =>
    change Jet.add a b = .ok J at h
    rw [Jet.add_real] at h
    cases h
    exact ⟨ha.add hb, .of_forall fun _ => rfl⟩
  | sub =>
    change Jet.sub a b = .ok J at h
    rw [Jet.sub_real] at h
    cases h
    exact ⟨ha.sub hb, .of_forall fun _ => rfl⟩
  | mul => exact ⟨ha.of_mul hb h, .of_forall fun _ => rfl⟩
  | div =>
    obtain ⟨hJ, hne⟩ := ha.div hb h
    refine ⟨hJ, hne.mono fun y hy => ?_⟩
    simp [BinOp.apply, BinOp.real, hy]
  | pow =>
    obtain ⟨hJ, hdef⟩ := ha.pow hb (hpow rfl) h
    refine ⟨hJ, hdef.mono fun y hy => ?_⟩
    simp only [BinOp.apply, BinOp.real, Scalar.pow_real, if_neg hy, Failure.lift_ok]

end Follows

end ScalarDiff

end
