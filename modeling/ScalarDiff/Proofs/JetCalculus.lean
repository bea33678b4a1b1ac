import Mathlib
import ScalarDiff.Proofs.RealReading

/-!
# Jets that follow a function

A real jet carries a value, a gradient over the input positions and possibly a Hessian. Over `n`
inputs the gradient is read as the linear form `v ↦ ∑ g i · v i` (`gradForm`) and the Hessian as
the bilinear form `(v, w) ↦ ∑ v i · H i j · w j` (`hessForm`), whose first argument is the
direction of the outer derivative.

A jet follows a function `φ` of the inputs at a point `x` (`Follows`) when its value is `φ x`, its
gradient is the derivative of `φ` at `x`, and its Hessian, if it carries one, is the derivative at
`x` of the derivative of `φ`, which must exist near `x`. Each jet rule keeps that relation: a
constant follows a constant function, an input its coordinate, and sums, differences, products,
negations and the chain rule follow the sums, products and compositions of the functions their
operands follow (`Follows.add` and its siblings). The chain rule asks of the outer function a
derivative near the value and a second derivative at it.
-/

noncomputable section

namespace ScalarDiff

open Filter Topology

variable {n : ℕ}

/-- A gradient read over the first `n` input positions: the linear form `v ↦ ∑ g i · v i`. -/
def gradForm (n : ℕ) (g : ℕ → ℝ) : (Fin n → ℝ) →L[ℝ] ℝ :=
  ∑ i : Fin n, g i • (ContinuousLinearMap.proj i : (Fin n → ℝ) →L[ℝ] ℝ)

/-- A Hessian read over the first `n` input positions: the bilinear form
`(v, w) ↦ ∑ v i · H i j · w j`, the outer derivative in the direction `v`. -/
def hessForm (n : ℕ) (H : ℕ → ℕ → ℝ) : (Fin n → ℝ) →L[ℝ] (Fin n → ℝ) →L[ℝ] ℝ :=
  ∑ i : Fin n, (ContinuousLinearMap.proj i : (Fin n → ℝ) →L[ℝ] ℝ).smulRight (gradForm n (H i))

@[simp]
theorem gradForm_apply (g : ℕ → ℝ) (v : Fin n → ℝ) : gradForm n g v = ∑ i : Fin n, g i * v i := by
  simp [gradForm]

@[simp]
theorem hessForm_apply (H : ℕ → ℕ → ℝ) (v w : Fin n → ℝ) :
    hessForm n H v w = ∑ i : Fin n, v i * ∑ j : Fin n, H i j * w j := by
  simp [hessForm]

/-! The two forms are linear in the arrays, and an outer product is the product of forms. -/

@[simp]
theorem gradForm_zero : gradForm n 0 = 0 := by
  ext v
  simp

@[simp]
theorem gradForm_add (g h : ℕ → ℝ) : gradForm n (g + h) = gradForm n g + gradForm n h := by
  ext v
  simp [add_mul, Finset.sum_add_distrib]

@[simp]
theorem gradForm_sub (g h : ℕ → ℝ) : gradForm n (g - h) = gradForm n g - gradForm n h := by
  ext v
  simp [sub_mul, Finset.sum_sub_distrib]

@[simp]
theorem gradForm_neg (g : ℕ → ℝ) : gradForm n (-g) = -gradForm n g := by
  ext v
  simp

@[simp]
theorem gradForm_smul (c : ℝ) (g : ℕ → ℝ) : gradForm n (c • g) = c • gradForm n g := by
  ext v
  simp [Finset.mul_sum, mul_assoc]

/-- The unit gradient of input `i` is the coordinate `i`. -/
theorem gradForm_single (i : Fin n) :
    gradForm n (Pi.single (i : ℕ) 1) = (ContinuousLinearMap.proj i : (Fin n → ℝ) →L[ℝ] ℝ) := by
  ext v
  simp [Pi.single_apply, Fin.val_inj]

@[simp]
theorem hessForm_zero : hessForm n 0 = 0 := by
  ext v w
  simp

@[simp]
theorem hessForm_add (H K : ℕ → ℕ → ℝ) : hessForm n (H + K) = hessForm n H + hessForm n K := by
  ext v w
  simp [add_mul, mul_add, Finset.sum_add_distrib]

@[simp]
theorem hessForm_sub (H K : ℕ → ℕ → ℝ) : hessForm n (H - K) = hessForm n H - hessForm n K := by
  ext v w
  simp [sub_mul, mul_sub, Finset.sum_sub_distrib]

@[simp]
theorem hessForm_neg (H : ℕ → ℕ → ℝ) : hessForm n (-H) = -hessForm n H := by
  ext v w
  simp

@[simp]
theorem hessForm_smul (c : ℝ) (H : ℕ → ℕ → ℝ) : hessForm n (c • H) = c • hessForm n H := by
  ext v w
  simp [Finset.mul_sum, mul_assoc, mul_left_comm]

/-- The outer product `g ⊗ h` is the product of the two linear forms, `g` in the outer
direction. -/
theorem hessForm_gradOuter (g h : ℕ → ℝ) :
    hessForm n (gradOuter g h) = (gradForm n g).smulRight (gradForm n h) := by
  ext v w
  simp only [hessForm_apply, gradOuter_apply, ContinuousLinearMap.smulRight_apply, smul_apply,
    gradForm_apply, smul_eq_mul]
  rw [Finset.sum_mul_sum]
  refine Finset.sum_congr rfl fun i _ => ?_
  rw [Finset.mul_sum]
  exact Finset.sum_congr rfl fun j _ => by ring

/-- `J` follows `φ` at `x`: the value of `J` is `φ x`, its gradient the derivative of `φ` at `x`;
it carries a Hessian exactly in a second-order sweep, and that Hessian is the derivative at `x`
of a derivative of `φ` near `x`. -/
structure Follows (second : Bool) (x : Fin n → ℝ) (J : RealJet) (φ : (Fin n → ℝ) → ℝ) :
    Prop where
  value : J.value = φ x
  grad : HasFDerivAt φ (gradForm n J.grad) x
  carries : J.hess.isSome = second
  hess : ∀ H, J.hess = some H → ∃ D : (Fin n → ℝ) → (Fin n → ℝ) →L[ℝ] ℝ,
    (∀ᶠ y in 𝓝 x, HasFDerivAt φ (D y) y) ∧ HasFDerivAt D (hessForm n H) x

namespace Follows

variable {second : Bool} {x : Fin n → ℝ} {a b : RealJet} {φ ψ : (Fin n → ℝ) → ℝ}

/-- The function a jet follows is continuous at the point, so a condition that holds near its
value holds of its values near the point. -/
theorem eventually (h : Follows second x a φ) {p : ℝ → Prop} (hp : ∀ᶠ t in 𝓝 (φ x), p t) :
    ∀ᶠ y in 𝓝 x, p (φ y) :=
  h.grad.continuousAt.tendsto.eventually hp

/-- The derivative of `φ` near `x` that a Hessian comes with is the gradient at `x`. -/
theorem derivative_at {D : (Fin n → ℝ) → (Fin n → ℝ) →L[ℝ] ℝ} (h : Follows second x a φ)
    (hD : ∀ᶠ y in 𝓝 x, HasFDerivAt φ (D y) y) : D x = gradForm n a.grad :=
  hD.self_of_nhds.unique h.grad

/-- A jet follows every function equal to its own near the point. -/
theorem congr (h : Follows second x a φ) (hφ : φ =ᶠ[𝓝 x] ψ) : Follows second x a ψ where
  value := h.value.trans hφ.self_of_nhds
  grad := h.grad.congr_of_eventuallyEq hφ.symm
  carries := h.carries
  hess H hH := by
    obtain ⟨D, hD, hDD⟩ := h.hess H hH
    -- near `x` the two functions agree near every point, so have the same derivatives
    refine ⟨D, (hD.and hφ.eventually_nhds).mono fun y hy => ?_, hDD⟩
    exact hy.1.congr_of_eventuallyEq (EventuallyEq.symm hy.2)

/-- A function with the same derivative everywhere has the zero Hessian. -/
theorem hess_zero_of_linear {L : (Fin n → ℝ) →L[ℝ] ℝ} (hφ : ∀ y, HasFDerivAt φ L y) :
    ∃ D : (Fin n → ℝ) → (Fin n → ℝ) →L[ℝ] ℝ,
      (∀ᶠ y in 𝓝 x, HasFDerivAt φ (D y) y) ∧ HasFDerivAt D (hessForm n 0) x := by
  refine ⟨fun _ => L, .of_forall hφ, ?_⟩
  rw [hessForm_zero]
  exact hasFDerivAt_const L x

/-- A constant follows its constant function. -/
theorem const (c : ℝ) : Follows second x (Jet.const n second c) (fun _ => c) where
  value := rfl
  grad := by simpa using hasFDerivAt_const c x
  carries := by cases second <;> rfl
  hess H hH := by
    cases second
    · cases hH
    · cases hH
      exact hess_zero_of_linear fun y => hasFDerivAt_const c y

/-- Input `i` follows its coordinate. -/
theorem input (i : Fin n) :
    Follows second x (Jet.input n second i (x i)) (fun y => y i) where
  value := rfl
  grad := by
    rw [Jet.input_real, gradForm_single]
    exact hasFDerivAt_apply i x
  carries := by cases second <;> rfl
  hess H hH := by
    cases second
    · cases hH
    · cases hH
      exact hess_zero_of_linear fun y => hasFDerivAt_apply i y

/-- In a sweep of one order both operands carry a Hessian or neither does. -/
theorem hess_bind (ha : Follows second x a φ) (hb : Follows second x b ψ)
    (f : (ℕ → ℕ → ℝ) → (ℕ → ℕ → ℝ) → ℕ → ℕ → ℝ) :
    (a.hess.bind fun H => b.hess.map (f H)).isSome = second := by
  have hA := ha.carries
  have hB := hb.carries
  rcases a with ⟨u, g, _ | H⟩ <;> rcases b with ⟨w, k, _ | K⟩ <;> simp_all

/-- A Hessian built from the Hessians of two operands comes with derivatives of both operands'
functions near `x`, each differentiable at `x` with the operand's Hessian. -/
theorem hess_pair (ha : Follows second x a φ) (hb : Follows second x b ψ)
    {f : (ℕ → ℕ → ℝ) → (ℕ → ℕ → ℝ) → ℕ → ℕ → ℝ} {H : ℕ → ℕ → ℝ}
    (hH : (a.hess.bind fun Ha => b.hess.map (f Ha)) = some H) :
    ∃ Ha Hb, H = f Ha Hb ∧ ∃ Da Db : (Fin n → ℝ) → (Fin n → ℝ) →L[ℝ] ℝ,
      (∀ᶠ y in 𝓝 x, HasFDerivAt φ (Da y) y) ∧ (∀ᶠ y in 𝓝 x, HasFDerivAt ψ (Db y) y) ∧
      HasFDerivAt Da (hessForm n Ha) x ∧ HasFDerivAt Db (hessForm n Hb) x := by
  simp only [Option.bind_eq_some_iff, Option.map_eq_some_iff] at hH
  obtain ⟨Ha, hHa, Hb, hHb, rfl⟩ := hH
  obtain ⟨Da, hDa, hDDa⟩ := ha.hess Ha hHa
  obtain ⟨Db, hDb, hDDb⟩ := hb.hess Hb hHb
  exact ⟨Ha, Hb, rfl, Da, Db, hDa, hDb, hDDa, hDDb⟩

/-- A Hessian built from the Hessian of one operand comes with a derivative of its function near
`x`, differentiable at `x` with that Hessian. -/
theorem hess_map (ha : Follows second x a φ) {f : (ℕ → ℕ → ℝ) → ℕ → ℕ → ℝ} {H : ℕ → ℕ → ℝ}
    (hH : a.hess.map f = some H) :
    ∃ Ha, H = f Ha ∧ ∃ Da : (Fin n → ℝ) → (Fin n → ℝ) →L[ℝ] ℝ,
      (∀ᶠ y in 𝓝 x, HasFDerivAt φ (Da y) y) ∧ HasFDerivAt Da (hessForm n Ha) x := by
  simp only [Option.map_eq_some_iff] at hH
  obtain ⟨Ha, hHa, rfl⟩ := hH
  exact ⟨Ha, rfl, ha.hess Ha hHa⟩

theorem add (ha : Follows second x a φ) (hb : Follows second x b ψ) :
    Follows second x ⟨a.value + b.value, a.grad + b.grad, a.hess.bind fun H => b.hess.map (H + ·)⟩
      (fun y => φ y + ψ y) where
  value := by rw [ha.value, hb.value]
  grad := by
    rw [gradForm_add]
    exact ha.grad.add hb.grad
  carries := ha.hess_bind hb _
  hess H hH := by
    obtain ⟨Ha, Hb, rfl, Da, Db, hDa, hDb, hDDa, hDDb⟩ := ha.hess_pair hb hH
    refine ⟨fun y => Da y + Db y, (hDa.and hDb).mono fun y hy => hy.1.add hy.2, ?_⟩
    rw [hessForm_add]
    exact hDDa.add hDDb

theorem sub (ha : Follows second x a φ) (hb : Follows second x b ψ) :
    Follows second x ⟨a.value - b.value, a.grad - b.grad, a.hess.bind fun H => b.hess.map (H - ·)⟩
      (fun y => φ y - ψ y) where
  value := by rw [ha.value, hb.value]
  grad := by
    rw [gradForm_sub]
    exact ha.grad.sub hb.grad
  carries := ha.hess_bind hb _
  hess H hH := by
    obtain ⟨Ha, Hb, rfl, Da, Db, hDa, hDb, hDDa, hDDb⟩ := ha.hess_pair hb hH
    refine ⟨fun y => Da y - Db y, (hDa.and hDb).mono fun y hy => hy.1.sub hy.2, ?_⟩
    rw [hessForm_sub]
    exact hDDa.sub hDDb

theorem neg (ha : Follows second x a φ) :
    Follows second x ⟨-a.value, -a.grad, a.hess.map (-·)⟩ (fun y => -φ y) where
  value := by rw [ha.value]
  grad := by
    rw [gradForm_neg]
    exact ha.grad.neg
  carries := by simpa using ha.carries
  hess H hH := by
    obtain ⟨Ha, rfl, Da, hDa, hDDa⟩ := ha.hess_map hH
    refine ⟨fun y => -Da y, hDa.mono fun y hy => hy.neg, ?_⟩
    rw [hessForm_neg]
    exact hDDa.neg

/-- The product rule: the Hessian of `φ · ψ` is `ψ Hφ + φ Hψ + gφ ⊗ gψ + gψ ⊗ gφ`. -/
theorem mul (ha : Follows second x a φ) (hb : Follows second x b ψ) :
    Follows second x ⟨a.value * b.value, b.value • a.grad + a.value • b.grad,
      a.hess.bind fun H => b.hess.map fun K =>
        (b.value • H + a.value • K) + (gradOuter a.grad b.grad + gradOuter b.grad a.grad)⟩
      (fun y => φ y * ψ y) where
  value := by rw [ha.value, hb.value]
  grad := by
    have h := ha.grad.mul hb.grad
    rw [← ha.value, ← hb.value, add_comm] at h
    rw [gradForm_add, gradForm_smul, gradForm_smul]
    exact h
  carries := ha.hess_bind hb _
  hess H hH := by
    obtain ⟨Ha, Hb, rfl, Da, Db, hDa, hDb, hDDa, hDDb⟩ := ha.hess_pair hb hH
    -- near `x` the derivative of the product is `φ Dψ + ψ Dφ`; differentiate that at `x`
    refine ⟨fun y => φ y • Db y + ψ y • Da y, (hDa.and hDb).mono fun y hy => hy.1.mul hy.2, ?_⟩
    have hsum := (ha.grad.smul hDDb).add (hb.grad.smul hDDa)
    rw [ha.derivative_at hDa, hb.derivative_at hDb, ← ha.value, ← hb.value] at hsum
    refine hsum.congr_fderiv ?_
    simp only [hessForm_add, hessForm_smul, hessForm_gradOuter]
    abel

/-- The chain rule through an outer function `g` with derivative `g'` near the value and second
derivative `d2` at it. -/
theorem chain (ha : Follows second x a φ) {g g' : ℝ → ℝ} {d2 : ℝ}
    (hg : ∀ᶠ t in 𝓝 (φ x), HasDerivAt g (g' t) t) (hg' : HasDerivAt g' d2 (φ x)) :
    Follows second x ⟨g (φ x), g' (φ x) • a.grad,
      a.hess.map fun H => g' (φ x) • H + d2 • gradOuter a.grad a.grad⟩ (fun y => g (φ y)) where
  value := rfl
  grad := by
    rw [gradForm_smul]
    exact hg.self_of_nhds.comp_hasFDerivAt x ha.grad
  carries := by simpa using ha.carries
  hess H hH := by
    obtain ⟨Ha, rfl, Da, hDa, hDDa⟩ := ha.hess_map hH
    -- near `x` the value stays where `g` has its derivative
    have hnear : ∀ᶠ y in 𝓝 x, HasDerivAt g (g' (φ y)) (φ y) := ha.eventually hg
    refine ⟨fun y => g' (φ y) • Da y, (hDa.and hnear).mono fun y hy => ?_, ?_⟩
    · exact hy.2.comp_hasFDerivAt y hy.1
    · have hprod := (hg'.comp_hasFDerivAt x ha.grad).smul hDDa
      rw [ha.derivative_at hDa] at hprod
      refine hprod.congr_fderiv ?_
      rw [hessForm_add, hessForm_smul, hessForm_smul, hessForm_gradOuter]
      -- the two sides differ only in where the scalar `d2` sits
      congr 1
      ext v w
      simp [mul_assoc]

/-- The product rule as the jet rules run it. -/
theorem of_mul (ha : Follows second x a φ) (hb : Follows second x b ψ) {J : RealJet}
    (hJ : Jet.mul a b = .ok J) : Follows second x J (fun y => φ y * ψ y) := by
  rw [Jet.mul_real] at hJ
  cases hJ
  exact ha.mul hb

/-- The chain rule as the jet rules run it, with the outer function's derivatives at the
value. -/
theorem of_chain (ha : Follows second x a φ) {g g' : ℝ → ℝ} {d2 : ℝ}
    (hg : ∀ᶠ t in 𝓝 (φ x), HasDerivAt g (g' t) t) (hg' : HasDerivAt g' d2 (φ x)) {J : RealJet}
    (hJ : Jet.chain a (g (φ x)) (g' (φ x)) d2 = .ok J) : Follows second x J (fun y => g (φ y)) := by
  rw [Jet.chain_real] at hJ
  cases hJ
  exact ha.chain hg hg'

/-- A jet follows `φ` with any value that is `φ x`. -/
theorem with_value (h : Follows second x a φ) {v : ℝ} (hv : v = φ x) :
    Follows second x { a with value := v } φ :=
  ⟨hv, h.grad, h.carries, h.hess⟩

/-- The Hessian a jet carries is the second derivative of the function it follows. -/
theorem hasFDerivAt_fderiv {H : ℕ → ℕ → ℝ} (h : Follows second x a φ) (hH : a.hess = some H) :
    HasFDerivAt (fderiv ℝ φ) (hessForm n H) x := by
  obtain ⟨D, hD, hDD⟩ := h.hess H hH
  -- near `x` the derivative of `φ` is `D`
  exact hDD.congr_of_eventuallyEq (hD.mono fun y hy => hy.fderiv)

end Follows

end ScalarDiff

end
