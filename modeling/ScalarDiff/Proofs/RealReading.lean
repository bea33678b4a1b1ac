import Mathlib
import ScalarDiff.Proofs.JetRules
import ScalarDiff.Proofs.DepthLimit

/-!
# The engines read in exact real arithmetic

The machine and the jet rules are written for any type of values with the arithmetic of
`ScalarDiff.Scalar` and for any derivative arrays with the operations of
`ScalarDiff.Tangent`. Read in the real numbers they compute exactly: sums, products and quotients
of reals, Mathlib's exponential, logarithm, sine, cosine, tangent and square root, and the real
power `a ^ b` (`Real.rpow`), which is `exp (b · log a)` for a positive base and the integer power
for an integer exponent. A quotient by zero aborts, and so does a power of zero to a negative
exponent, which has no value either. Every real is finite, so no finiteness check refuses one.
A real has no double and no text of its own here: it reads as the double zero and the empty
text, which only the conversions of results and the messages of failures use.

Derivative arrays over the reals are functions of the input position, a gradient `ℕ → ℝ` and a
Hessian `ℕ → ℕ → ℝ`, with the arithmetic of functions. The jet rules then have closed forms
(`Jet.chain_real` and its siblings), with the outer product `gradOuter`.

The real reading of a program replaces every constant by the exact value of its double
(`Float.toReal`).
-/

noncomputable section

namespace ScalarDiff

/-- The exact value of a double (`Decimal.Binary.value`); an infinity or a NaN reads as zero. -/
def Float.toReal (x : Float) : ℝ :=
  match Decimal.Binary.ofFloat? x with
  | some b => b.value
  | none => 0

theorem Float.toReal_of_binary {x : Float} {b : Decimal.Binary}
    (h : Decimal.Binary.ofFloat? x = some b) : Float.toReal x = b.value := by
  rw [Float.toReal, h]

/-! The constants the jet rules use read as what they spell. -/

@[simp]
theorem Float.toReal_zero : Float.toReal 0.0 = 0 := by
  rw [Float.toReal_of_binary (b := ⟨false, 0, -1074⟩) (by decide), Decimal.Binary.value]
  norm_num

@[simp]
theorem Float.toReal_one : Float.toReal 1.0 = 1 := by
  rw [Float.toReal_of_binary (b := ⟨false, 4503599627370496, -52⟩) (by decide),
    Decimal.Binary.value]
  norm_num

@[simp]
theorem Float.toReal_neg_one : Float.toReal (-1.0) = -1 := by
  rw [Float.toReal_of_binary (b := ⟨true, 4503599627370496, -52⟩) (by decide),
    Decimal.Binary.value]
  norm_num

@[simp]
theorem Float.toReal_two : Float.toReal 2.0 = 2 := by
  rw [Float.toReal_of_binary (b := ⟨false, 4503599627370496, -51⟩) (by decide),
    Decimal.Binary.value]
  norm_num

@[simp]
theorem Float.toReal_half : Float.toReal 0.5 = 1 / 2 := by
  rw [Float.toReal_of_binary (b := ⟨false, 4503599627370496, -53⟩) (by decide),
    Decimal.Binary.value]
  norm_num

@[simp]
theorem Float.toReal_neg_half : Float.toReal (-0.5) = -(1 / 2) := by
  rw [Float.toReal_of_binary (b := ⟨true, 4503599627370496, -53⟩) (by decide),
    Decimal.Binary.value]
  norm_num

/-- Exact real arithmetic with Mathlib's functions and the real power. -/
instance : Scalar ℝ where
  ofFloat := Float.toReal
  toFloat _ := .ok 0.0
  add a b := .ok (a + b)
  sub a b := .ok (a - b)
  mul a b := .ok (a * b)
  div a b := if b = 0 then .error .zeroDivision else .ok (a / b)
  neg x := .ok (-x)
  abs x := .ok |x|
  pow a b := if a = 0 ∧ b < 0 then .error .zeroDivision else .ok (a ^ b)
  sin x := .ok (Real.sin x)
  cos x := .ok (Real.cos x)
  tan x := .ok (Real.tan x)
  exp x := .ok (Real.exp x)
  log x := .ok (Real.log x)
  sqrt x := .ok (Real.sqrt x)
  isZero x := decide (x = 0)
  isOne x := decide (x = 1)
  isFinite _ := true
  atMostZero x := .ok (decide (x ≤ 0))
  belowZero x := .ok (decide (x < 0))
  atLeastZero x := .ok (decide (0 ≤ x))
  spelled _ := .ok ""

namespace Scalar

variable (a b : ℝ)

@[simp] theorem ofFloat_real (c : Float) : (Scalar.ofFloat c : ℝ) = Float.toReal c := rfl
@[simp] theorem add_real : Scalar.add a b = .ok (a + b) := rfl
@[simp] theorem sub_real : Scalar.sub a b = .ok (a - b) := rfl
@[simp] theorem mul_real : Scalar.mul a b = .ok (a * b) := rfl
@[simp] theorem neg_real : Scalar.neg a = .ok (-a) := rfl
@[simp] theorem abs_real : Scalar.abs a = .ok |a| := rfl
@[simp] theorem sin_real : Scalar.sin a = .ok (Real.sin a) := rfl
@[simp] theorem cos_real : Scalar.cos a = .ok (Real.cos a) := rfl
@[simp] theorem tan_real : Scalar.tan a = .ok (Real.tan a) := rfl
@[simp] theorem exp_real : Scalar.exp a = .ok (Real.exp a) := rfl
@[simp] theorem log_real : Scalar.log a = .ok (Real.log a) := rfl
@[simp] theorem sqrt_real : Scalar.sqrt a = .ok (Real.sqrt a) := rfl
@[simp] theorem isZero_real : Scalar.isZero a = decide (a = 0) := rfl
@[simp] theorem isOne_real : Scalar.isOne a = decide (a = 1) := rfl
@[simp] theorem isFinite_real : Scalar.isFinite a = true := rfl
@[simp] theorem atMostZero_real : Scalar.atMostZero a = .ok (decide (a ≤ 0)) := rfl
@[simp] theorem belowZero_real : Scalar.belowZero a = .ok (decide (a < 0)) := rfl
@[simp] theorem atLeastZero_real : Scalar.atLeastZero a = .ok (decide (0 ≤ a)) := rfl
@[simp] theorem spelled_real : Scalar.spelled a = .ok "" := rfl

@[simp]
theorem div_real : Scalar.div a b = if b = 0 then .error .zeroDivision else .ok (a / b) := rfl

@[simp]
theorem pow_real :
    Scalar.pow a b = if a = 0 ∧ b < 0 then .error .zeroDivision else .ok (a ^ b) := rfl

end Scalar

/-- The outer product `g ⊗ h` of two gradients: entry `(i, j)` is `g i * h j`. -/
def gradOuter (g h : ℕ → ℝ) : ℕ → ℕ → ℝ := fun i j => g i * h j

@[simp]
theorem gradOuter_apply (g h : ℕ → ℝ) (i j : ℕ) : gradOuter g h i j = g i * h j := rfl

/-- Derivative arrays of reals as functions of the input positions, with the arithmetic of
functions. -/
instance : Tangent ℝ (ℕ → ℝ) (ℕ → ℕ → ℝ) where
  zeroGrad _ := 0
  unitGrad _ i := Pi.single i 1
  zeroHess _ := 0
  scaleGrad s v := .ok (s • v)
  scaleHess s m := .ok (s • m)
  addGrad u v := .ok (u + v)
  subGrad u v := .ok (u - v)
  addHess m k := .ok (m + k)
  subHess m k := .ok (m - k)
  negGrad v := .ok (-v)
  negHess m := .ok (-m)
  outer g h := .ok (gradOuter g h)
  gradNonzero v := by classical exact decide (v ≠ 0)
  hessNonzero m := by classical exact decide (m ≠ 0)
  gradFinite _ := .ok true
  hessFinite _ := .ok true
  gradReal v := .ok v
  hessReal m := .ok m

/-- Jets of reals with their derivative arrays as functions of the input positions. -/
abbrev RealJet := Jet ℝ (ℕ → ℝ) (ℕ → ℕ → ℝ)

namespace Jet

variable (a b : RealJet)

@[simp]
theorem const_real (n : ℕ) (second : Bool) (c : ℝ) :
    (Jet.const n second c : RealJet) = ⟨c, 0, if second then some 0 else none⟩ := rfl

@[simp]
theorem input_real (n : ℕ) (second : Bool) (i : ℕ) (v : ℝ) :
    (Jet.input n second i v : RealJet) = ⟨v, Pi.single i 1, if second then some 0 else none⟩ :=
  rfl

/-- The chain rule: the gradient scaled by `d1`, the Hessian by `d1` plus `d2 · (g ⊗ g)`. -/
theorem chain_real (v d1 d2 : ℝ) :
    Jet.chain a v d1 d2 =
      .ok ⟨v, d1 • a.grad, a.hess.map fun H => d1 • H + d2 • gradOuter a.grad a.grad⟩ := by
  rcases a with ⟨u, g, _ | H⟩ <;> rfl

theorem add_real :
    Jet.add a b = .ok ⟨a.value + b.value, a.grad + b.grad,
      a.hess.bind fun H => b.hess.map (H + ·)⟩ := by
  rcases a with ⟨u, g, _ | H⟩ <;> rcases b with ⟨w, k, _ | K⟩ <;> rfl

theorem sub_real :
    Jet.sub a b = .ok ⟨a.value - b.value, a.grad - b.grad,
      a.hess.bind fun H => b.hess.map (H - ·)⟩ := by
  rcases a with ⟨u, g, _ | H⟩ <;> rcases b with ⟨w, k, _ | K⟩ <;> rfl

/-- The product rule, with the symmetric cross term `g ⊗ k + k ⊗ g`. -/
theorem mul_real :
    Jet.mul a b = .ok ⟨a.value * b.value, b.value • a.grad + a.value • b.grad,
      a.hess.bind fun H => b.hess.map fun K =>
        (b.value • H + a.value • K) + (gradOuter a.grad b.grad + gradOuter b.grad a.grad)⟩ := by
  rcases a with ⟨u, g, _ | H⟩ <;> rcases b with ⟨w, k, _ | K⟩ <;> rfl

theorem neg_real : Jet.neg a = .ok ⟨-a.value, -a.grad, a.hess.map (-·)⟩ := by
  rcases a with ⟨u, g, _ | H⟩ <;> rfl

/-! The derivative coefficients of the rules, in closed form. -/

theorem reciprocalSlopes_real (r : ℝ) : Jet.reciprocalSlopes r = .ok (-r * r, 2 * r * r * r) := by
  simp only [Jet.reciprocalSlopes, Scalar.neg_real, Scalar.mul_real, Scalar.ofFloat_real,
    Float.toReal_two, ok_bind]
  rfl

theorem tangentSlopes_real (t : ℝ) :
    Jet.tangentSlopes t = .ok (1 + t * t, 2 * t * (1 + t * t)) := by
  simp only [Jet.tangentSlopes, Scalar.add_real, Scalar.mul_real, Scalar.ofFloat_real,
    Float.toReal_one, Float.toReal_two, ok_bind]
  rfl

theorem logSlopes_real {t : ℝ} (ht : t ≠ 0) :
    Jet.logSlopes t = .ok (Real.log t, 1 / t, -1 / (t * t)) := by
  simp only [Jet.logSlopes, Scalar.log_real, Scalar.div_real, Scalar.mul_real, Scalar.ofFloat_real,
    Float.toReal_one, Float.toReal_neg_one, if_neg ht, if_neg (mul_ne_zero ht ht), ok_bind]
  rfl

theorem rootSlopes_real {t : ℝ} (ht : 0 < t) :
    Jet.rootSlopes t (Real.sqrt t) = .ok (1 / 2 / Real.sqrt t, -(1 / 2) * (1 / 2 / Real.sqrt t) / t) := by
  simp only [Jet.rootSlopes, Scalar.div_real, Scalar.mul_real, Scalar.ofFloat_real,
    Float.toReal_half, Float.toReal_neg_half, if_neg (Real.sqrt_pos.2 ht).ne', if_neg ht.ne', ok_bind]
  rfl

/-- The power rule's coefficients `c · t^(c-1)` and `c · (c-1) · t^(c-2)`; at a zero base the
rule refuses a negative power, which leaves the exponents `0`, `1` and those from `2` on. -/
theorem constantPowerSlopes_real {t c d1 d2 : ℝ} (h : Jet.constantPowerSlopes t c = .ok (d1, d2)) :
    d1 = c * t ^ (c - 1) ∧ d2 = c * (c - 1) * t ^ (c - 2) ∧ (t = 0 → c = 0 ∨ c = 1 ∨ 2 ≤ c) := by
  simp only [Jet.constantPowerSlopes, Scalar.isZero_real, Scalar.isOne_real, Scalar.ofFloat_real,
    Scalar.sub_real, Scalar.mul_real, Scalar.pow_real, Float.toReal_zero, Float.toReal_one,
    Float.toReal_two, ok_bind] at h
  rcases eq_or_ne c 0 with rfl | hc0
  · simp only [decide_true, Bool.true_or, if_true] at h
    cases h
    simp
  have hne0 : ¬decide (c = 0) = true := by simpa using hc0
  by_cases hp1 : t = 0 ∧ c - 1 < 0
  · rw [if_neg hne0, if_pos hp1, error_bind] at h
    cases h
  rw [if_neg hne0, if_neg hp1, ok_bind] at h
  rcases eq_or_ne c 1 with rfl | hc1
  · simp only [decide_true, Bool.or_true, if_true] at h
    cases h
    simp
  have hne1 : ¬(decide (c = 0) || decide (c = 1)) = true := by simp [hc0, hc1]
  by_cases hp2 : t = 0 ∧ c - 2 < 0
  · rw [if_neg hne1, if_pos hp2, error_bind] at h
    cases h
  rw [if_neg hne1, if_neg hp2, ok_bind] at h
  cases h
  -- at a zero base the second coefficient's power was not refused
  refine ⟨rfl, rfl, fun ht => .inr (.inr ?_)⟩
  linarith [not_lt.1 fun h => hp2 ⟨ht, h⟩]

/-- A jet is constant exactly when its gradient and its Hessian, if it carries one, are zero. -/
theorem isConstant_real :
    a.isConstant = true ↔ a.grad = 0 ∧ ∀ H, a.hess = some H → H = 0 := by
  rcases a with ⟨u, g, _ | H⟩ <;>
    simp [Jet.isConstant, Tangent.gradNonzero, Tangent.hessNonzero]

end Jet

/-- An instruction with its constant read as the exact value of its double. -/
def Instr.real : Instr Float → Instr ℝ
  | .push c => .push (Float.toReal c)
  | .load i => .load i
  | .binary op => .binary op
  | .unary op => .unary op
  | .ret => .ret

/-- A program with its constants read as the exact values of their doubles. -/
def Bytecode.real (p : Bytecode Float) : Bytecode ℝ := ⟨p.code.map Instr.real, p.arity⟩

end ScalarDiff

end
